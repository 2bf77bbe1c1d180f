import FairLease.Claim.Snapshot

/-!
# The fairness rule

An owner may claim one more resource while nobody else holds fewer claims than
it does. An owner who holds nothing does not count.
-/

namespace FairLease

inductive Decision where
  | alreadyOwned
  | takenBy (owner : String)
  /-- There is no other owner to compare with. -/
  | unconstrained
  | withinBound (count minOther : Nat)
  | exceedsBound (count minOther : Nat)
  deriving DecidableEq, Repr

namespace Decision

def isGranted : Decision -> Bool
  | alreadyOwned => true
  | unconstrained => true
  | withinBound _ _ => true
  | _ => false

end Decision

namespace Snapshot

def minOther? (s : Snapshot) (uid : String) : Option Nat :=
  ((s.ownerCounts.filter (fun p => p.1 != uid)).map (·.2)).min?

def evaluate (s : Snapshot) (uid cidr : String) : Decision :=
  match s.ownerOf? cidr with
  | some owner => if owner = uid then .alreadyOwned else .takenBy owner
  | none =>
      match s.minOther? uid with
      | none => .unconstrained
      | some least =>
          if s.count uid ≤ least then .withinBound (s.count uid) least
          else .exceedsBound (s.count uid) least

def canClaim (s : Snapshot) (uid cidr : String) : Bool :=
  (s.evaluate uid cidr).isGranted

end Snapshot
end FairLease
