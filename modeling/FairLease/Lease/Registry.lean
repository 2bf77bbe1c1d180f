import FairLease.Lease.Renewal
import FairLease.Store.Memory

/-!
# The registry of renewals

The registry knows the renewal of every claim that is held, and starts no second
one while the first is running: asking for the claim again is only counted. A
renewal that finds its claim lost takes itself out of the registry, unless the
claim was asked for again after the loss was noticed. Each of these is done
while nobody else uses the registry.
-/

namespace FairLease

structure Registry where
  entries : Table Nat
  /-- Every renewal that was ever started, by number. -/
  renewals : Array Renewal

namespace Registry

def empty : Registry :=
  ⟨∅, #[]⟩

def renewal? (g : Registry) (id : Nat) : Option Renewal :=
  g.renewals[id]?

def update (g : Registry) (id : Nat) (f : Renewal -> Renewal) : Registry :=
  { g with renewals := g.renewals.modify id f }

def isRunning (g : Registry) (id : Nat) : Bool :=
  (g.renewal? id).any (fun r => !r.isEnded)

def running? (g : Registry) (key : String) : Option Nat :=
  g.entries[key]?.filter g.isRunning

/-- Ensure that a lease is renewed. Returns the number of the renewal if one was
started, which does not happen after a shutdown. -/
def ensure (isShutDown : Bool) (now : Nat) (lease : Lease) (g : Registry) :
    Option Nat × Registry :=
  if isShutDown then (none, g)
  else
    match g.running? lease.key with
    | some id => (none, g.update id (fun r => { r with touches := r.touches + 1 }))
    | none =>
        (some g.renewals.size,
          { entries := g.entries.insert lease.key g.renewals.size
            renewals := g.renewals.push (.start now lease) })

/-- A renewal gives up its claim, or goes on because the claim was asked for
again. An entry that belongs to another renewal is left alone. -/
def release (id : Nat) (g : Registry) : Registry :=
  match g.renewal? id with
  | none => g
  | some r =>
      match r.phase with
      | .releasing seen =>
          if r.touches ≠ seen then g.update id (fun r => { r with phase := .waiting })
          else
            let entries :=
              if g.entries[r.lease.key]? = some id then
                g.entries.erase r.lease.key
              else g.entries
            { g with entries }.update id (fun r => { r with phase := .released })
      | _ => g

def active (g : Registry) : Nat :=
  (g.entries.toList.filter (fun p => g.isRunning p.2)).length

def drain (g : Registry) : List Nat × Registry :=
  (g.entries.toList.map (·.2), { g with entries := ∅ })

end Registry
end FairLease
