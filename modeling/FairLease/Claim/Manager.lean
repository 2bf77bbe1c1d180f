import FairLease.Claim.Admission
import FairLease.Lease.Registry

/-!
# Claim managers

A manager admits claims under one root and renews those it was granted. Once it
has been cancelled it admits nothing and starts no renewal; its shutdown is over
when every renewal has ended. Claims are not given back, they lapse.
-/

namespace FairLease

structure Manager where
  settings : ClaimSettings
  isCancelled : Bool
  registry : Registry

namespace Manager

/-- Settings that contradict each other make no manager. -/
def new (settings : ClaimSettings) : Except ClaimError Manager :=
  settings.validate.map (fun _ => { settings, isCancelled := false, registry := .empty })

def attempt (m : Manager) (uid cidr : String) : Admission :=
  Admission.start m.isCancelled uid cidr

def lease (m : Manager) (a : Admission) : Lease :=
  { key := a.key m.settings, owner := a.uid, ttlMs := m.settings.ttlMs
    interval := m.settings.renewInterval }

/-- Ensure the renewal of an admitted claim. Returns the number of the renewal
if one was started. -/
def register (now : Nat) (a : Admission) (m : Manager) : Option Nat × Manager :=
  let (id, registry) := m.registry.ensure m.isCancelled now (m.lease a)
  (id, { m with registry })

def cancel (m : Manager) : Manager :=
  { m with isCancelled := true }

/-- Begin the shutdown. The renewals to wait for are returned. -/
def shutDown (m : Manager) : List Nat × Manager :=
  let (ids, registry) := m.registry.drain
  (ids, { m with isCancelled := true, registry })

end Manager
end FairLease
