import FairLease.Claim.Fairness
import FairLease.Claim.Listing

/-!
# Admission of a claim

A claim is admitted in three steps, between which others may act: list the
claims, decide by the fairness rule, and create the claim unless its key exists
by now. Who owns the claim already, or has created it, has its lease renewed
from then on.
-/

namespace FairLease

inductive Admission.Phase where
  | listing (l : Listing)
  | creating
  /-- The claim is held and its renewal is to be ensured. -/
  | registering
  | finished (result : Except ClaimError Bool)

structure Admission where
  uid : String
  cidr : String
  phase : Admission.Phase

namespace Admission

/-- The checks before the store is asked for anything, in this order. -/
def entryError? (isShutDown : Bool) (uid cidr : String) : Option ClaimError :=
  if uid.isEmpty then some (.invalidClaim .emptyOwner)
  else
    match ClaimKey.defect? cidr with
    | some defect => some (.invalidClaim defect)
    | none => if isShutDown then some .shutDown else none

def start (isShutDown : Bool) (uid cidr : String) : Admission :=
  match entryError? isShutDown uid cidr with
  | some e => { uid, cidr, phase := .finished (.error e) }
  | none => { uid, cidr, phase := .listing .start }

def granted (uid cidr : String) : Admission :=
  { uid, cidr, phase := .finished (.ok true) }

def key (s : ClaimSettings) (a : Admission) : String :=
  ClaimKey.ofCidr s.root a.cidr

def command (s : ClaimSettings) (a : Admission) : Command :=
  .createWithTtl (a.key s) a.uid s.ttlMs

def decide (a : Admission) (found : Snapshot) : Phase :=
  match found.evaluate a.uid a.cidr with
  | .alreadyOwned => .registering
  | decision => if decision.isGranted then .creating else .finished (.ok false)

def listed (s : ClaimSettings) (page : Except StoreError ScanResult)
    (a : Admission) :
    Admission :=
  match a.phase with
  | .listing l =>
      match l.receive s.root page with
      | .finished (.error e) => { a with phase := .finished (.error e) }
      | .finished (.ok found) => { a with phase := a.decide found }
      | l => { a with phase := .listing l }
  | _ => a

/-- Take up the answer to the command. Somebody else's claim is no error. -/
def created (result : Except StoreError WriteResult) (a : Admission) :
    Admission :=
  match a.phase with
  | .creating =>
      { a with
        phase := match result with
          | .ok _ => .registering
          | .error (.keyExists _) => .finished (.ok false)
          | .error e => .finished (.error (.storage e)) }
  | _ => a

def registered (a : Admission) : Admission :=
  match a.phase with
  | .registering => { a with phase := .finished (.ok true) }
  | _ => a

def result? (a : Admission) : Option (Except ClaimError Bool) :=
  match a.phase with
  | .finished result => some result
  | _ => none

end Admission
end FairLease
