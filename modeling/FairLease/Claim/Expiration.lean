import FairLease.Claim.Key
import FairLease.Claim.Settings
import FairLease.Lease.Backoff
import FairLease.Queue.Basic
import FairLease.Store.Event

/-!
# Watching for claims that disappear

The watch subscribes to the changes under the root of the claims and queues the
resource of every claim that is removed. After a failure that passes by itself
it pauses and asks the same watcher again; after any other failure it pauses and
subscribes anew. The pauses grow until an event arrives. Only cancellation ends
the watch.
-/

namespace FairLease

/-- `W` is the type of the watchers of the store. -/
inductive Expiration.Phase (W : Type) where
  | subscribing
  | listening (w : W)
  /-- After the pause the watcher is asked again, or a new one is made. -/
  | pausing (w : Option W) (wakeAt : Nat)
  | stopped
  deriving DecidableEq, Repr

structure Expiration (W : Type) where
  backoff : Backoff
  phase : Expiration.Phase W
  deriving DecidableEq, Repr

namespace Expiration

variable {W : Type}

def start (s : ClaimSettings) : Expiration W :=
  { backoff := .new s.retryBackoff s.retryBackoffMax, phase := .subscribing }

def removed? (root : String) (e : Event) : Option String :=
  if e.action.isRemoval then (ClaimKey.toCidr root e.key).toOption else none

def handle (root : String) (e : Event) (q : WorkQueue String) :
    WorkQueue String :=
  match removed? root e with
  | some cidr => (q.add cidr).2
  | none => q

def pause (now seed : Nat) (w : Option W) (x : Expiration W) : Expiration W :=
  let (delayMs, backoff) := x.backoff.next seed
  { backoff, phase := .pausing w (now + delayMs * 1000000) }

def subscribed (now seed : Nat) (result : Except StoreError W)
    (x : Expiration W) :
    Expiration W :=
  match x.phase with
  | .subscribing =>
      match result with
      | .ok w => { x with phase := .listening w }
      | .error _ => x.pause now seed none
  | _ => x

/-- The watcher is still good after the failure of its last question. -/
def isPassing : StoreError -> Bool
  | .watchClosed => false
  | e => e.isTransient

def notified (now seed : Nat) (result : Except StoreError Event) (w : W)
    (x : Expiration W) :
    Expiration W :=
  match x.phase with
  | .listening _ =>
      match result with
      | .ok _ => { backoff := x.backoff.reset, phase := .listening w }
      | .error e => x.pause now seed (if isPassing e then some w else none)
  | _ => x

def resume (now : Nat) (x : Expiration W) : Expiration W :=
  match x.phase with
  | .pausing w wakeAt =>
      if wakeAt ≤ now then
        { x with phase := match w with
          | some w => .listening w
          | none => .subscribing }
      else x
  | _ => x

def cancel (x : Expiration W) : Expiration W :=
  { x with phase := .stopped }

end Expiration
end FairLease
