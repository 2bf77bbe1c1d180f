import FairLease.Width
import Std.Data.ExtTreeMap

/-!
# Snapshots of claims

A snapshot is the set of live claims as one listing of the store saw it, with
the number of claims of every owner. Owners that hold nothing are not in it.
-/

namespace FairLease

structure Snapshot where
  owners : Std.ExtTreeMap String String compare
  counts : Std.ExtTreeMap String Nat compare

namespace Snapshot

def empty : Snapshot :=
  ⟨∅, ∅⟩

/-- Counts are kept in 32 bits and stay at their largest value. -/
def maxCount : Nat :=
  wordSize 32 - 1

/-- One claim less for an owner, who is forgotten with the last one. -/
def release (counts : Std.ExtTreeMap String Nat compare) (owner : String) :
    Std.ExtTreeMap String Nat compare :=
  match counts[owner]? with
  | none => counts
  | some count =>
      if count ≤ 1 then counts.erase owner else counts.insert owner (count - 1)

def acquire (counts : Std.ExtTreeMap String Nat compare) (owner : String) :
    Std.ExtTreeMap String Nat compare :=
  counts.insert owner (min (counts[owner]?.getD 0 + 1) maxCount)

/-- A resource that was claimed before changes its owner. -/
def insert (s : Snapshot) (cidr owner : String) : Snapshot :=
  let counts :=
    match s.owners[cidr]? with
    | none => s.counts
    | some previous => release s.counts previous
  ⟨s.owners.insert cidr owner, acquire counts owner⟩

/-- The claims of a list, later ones replacing earlier ones. -/
def ofList (claims : List (String × String)) : Snapshot :=
  claims.foldl (fun s claim => s.insert claim.1 claim.2) empty

def ownerOf? (s : Snapshot) (cidr : String) : Option String :=
  s.owners[cidr]?

def count (s : Snapshot) (owner : String) : Nat :=
  s.counts[owner]?.getD 0

def claims (s : Snapshot) : List (String × String) :=
  s.owners.toList

def ownerCounts (s : Snapshot) : List (String × Nat) :=
  s.counts.toList

def size (s : Snapshot) : Nat :=
  s.owners.size

instance : BEq Snapshot :=
  ⟨fun s t => s.claims == t.claims && s.ownerCounts == t.ownerCounts⟩

/-- The owner with the most claims has one more than the one with the fewest, at
most. -/
def isBalanced (s : Snapshot) : Bool :=
  let counts := s.ownerCounts.map (·.2)
  match counts.max?, counts.min? with
  | some most, some least => decide (most ≤ least + 1)
  | _, _ => true

end Snapshot
end FairLease
