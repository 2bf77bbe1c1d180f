import FairLease.Lease.Ticker
import FairLease.Store.Request

/-!
# Renewal of a lease

A renewal writes the owner over the owner once in every interval, which moves
the deadline of the claim. When the claim is found to have another value the
renewal looks again, and gives up if the value is really not its own. It goes on
after any other failure, since the claim lapses by itself if nobody reaches the
store.
-/

namespace FairLease

structure Lease where
  key : String
  owner : String
  ttlMs : Nat
  interval : Duration
  deriving DecidableEq, Repr

inductive Renewal.Phase where
  | waiting
  | swapping
  /-- The claim seemed lost when it had been asked for `seen` times. -/
  | rereading (seen : Nat)
  | releasing (seen : Nat)
  | released
  | ended
  deriving DecidableEq, Repr

structure Renewal where
  lease : Lease
  ticker : Ticker
  /-- How often the claim has been asked for again since the renewal started. -/
  touches : Nat
  phase : Renewal.Phase
  deriving DecidableEq, Repr

namespace Renewal

def start (now : Nat) (lease : Lease) : Renewal :=
  { lease, ticker := .startAfter now lease.interval, touches := 0, phase := .waiting }

def isEnded (r : Renewal) : Bool :=
  r.phase == .ended

def command (r : Renewal) : Command :=
  .compareAndSwapWithTtl r.lease.key r.lease.owner r.lease.owner r.lease.ttlMs

def tick (now : Nat) (r : Renewal) : Renewal :=
  match r.phase with
  | .waiting =>
      if r.ticker.isDue now then { r with phase := .swapping, ticker := r.ticker.delay now }
      else r
  | _ => r

def swapped (result : Except StoreError WriteResult) (r : Renewal) : Renewal :=
  match r.phase with
  | .swapping =>
      { r with
        phase := match result with
          | .error (.compareFailed _ _ _) => .rereading r.touches
          | _ => .waiting }
  | _ => r

def reread (result : Except StoreError ReadResult) (r : Renewal) : Renewal :=
  match r.phase with
  | .rereading seen =>
      { r with
        phase := match result with
          | .error _ => .waiting
          | .ok found =>
              if found.entry.map (·.value) = some r.lease.owner then .waiting
              else .releasing seen }
  | _ => r

/-- A renewal can be cancelled while it waits for a tick or for the store. -/
def cancel (r : Renewal) : Renewal :=
  match r.phase with
  | .waiting => { r with phase := .ended }
  | .swapping => { r with phase := .ended }
  | .rereading _ => { r with phase := .ended }
  | _ => r

def canCancel (r : Renewal) : Bool :=
  match r.phase with
  | .waiting => true
  | .swapping => true
  | .rereading _ => true
  | _ => false

def finish (r : Renewal) : Renewal :=
  match r.phase with
  | .released => { r with phase := .ended }
  | _ => r

end Renewal
end FairLease
