import FairLease.Claim.Admission
import FairLease.Queue.Consumer
import Std.Data.ExtTreeSet

/-!
# Taking over claims

A node serves a fixed set of resources. It tries to claim each of them once when
it starts, and again whenever the claim on it has disappeared, which it learns
from a queue. What it finds in the queue may be out of date: a claim that is not
granted is the expected outcome then.
-/

namespace FairLease

/-- What a node serves, in order and without repetition. -/
abbrev Served : Type :=
  Std.ExtTreeSet String compare

inductive ReconcileOutcome where
  | notServed
  | granted
  | notGranted
  | failed
  deriving DecidableEq, Repr

def ReconcileOutcome.ofResult : Except ClaimError Bool -> ReconcileOutcome
  | .ok true => granted
  | .ok false => notGranted
  | .error _ => failed

/-!
## The first pass
-/

structure ClaimPass where
  granted : Nat
  pending : List String
  current : Option Admission
  isFinished : Bool

namespace ClaimPass

def start (served : Served) : ClaimPass :=
  { granted := 0, pending := served.toList, current := none, isFinished := false }

/-- Go on with the next resource, unless the node has been cancelled. -/
def advance (isCancelled : Bool) (begin : String -> Admission) (p : ClaimPass) :
    ClaimPass :=
  match p.current, p.pending with
  | some _, _ => p
  | none, [] => { p with isFinished := true }
  | none, cidr :: rest =>
      if isCancelled then { p with isFinished := true }
      else { p with current := some (begin cidr), pending := rest }

def settle (result : Except ClaimError Bool) (p : ClaimPass) : ClaimPass :=
  let won := ReconcileOutcome.ofResult result = .granted
  { p with granted := if won then p.granted + 1 else p.granted, current := none }

end ClaimPass

/-!
## The loop
-/

inductive Reconciler.Phase where
  | fetching (c : Consumer String)
  | attempting (a : Admission)
  | stopped

structure Reconciler where
  served : Served
  phase : Reconciler.Phase

namespace Reconciler

def start (served : Served) : Reconciler :=
  { served, phase := .fetching .registering }

/-- What to do with an item of the queue, where no item means the end. -/
def take (begin : String -> Admission) (r : Reconciler) :
    Option String -> Reconciler
  | none => { r with phase := .stopped }
  | some cidr =>
      if r.served.contains cidr then { r with phase := .attempting (begin cidr) }
      else { r with phase := .fetching .registering }

def fetch (isCancelled : Bool) (begin : String -> Admission)
    (q : WorkQueue String) (r : Reconciler) : Reconciler × WorkQueue String :=
  match r.phase with
  | .fetching c =>
      match c.step isCancelled q with
      | (.returned item, q) => (r.take begin item, q)
      | (c, q) => ({ r with phase := .fetching c }, q)
  | _ => (r, q)

def settle (r : Reconciler) : Reconciler :=
  match r.phase with
  | .attempting _ => { r with phase := .fetching .registering }
  | _ => r

end Reconciler
end FairLease
