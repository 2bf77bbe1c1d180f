import FairLease.Etcd.Watcher
import FairLease.Store.Watcher

/-!
# Stores for a simulation

A simulation runs over the in-memory store, or over a client of a cluster whose
replies are given in advance. Neither takes any time to answer, but a watcher
may have nothing to say yet.
-/

namespace FairLease.Simulation

/-- A store with states `σ` and watchers `W`. -/
structure Backend (W σ : Type) where
  write : Nat -> Command -> StateM σ (Except StoreError WriteResult)
  read : Nat -> String -> StateM σ (Except StoreError ReadResult)
  scan : Nat -> ScanRequest -> StateM σ (Except StoreError ScanResult)
  watch : String -> StateM σ (Except StoreError W)
  /-- The next event, or `none` as long as there is none. -/
  next : W -> StateM σ (Option (Except StoreError Event) × W)
  /-- A watcher that had nothing to say may be asked again. -/
  hasNews : W -> σ -> Bool
  sweep : Nat -> σ -> σ

/-!
## The in-memory store
-/

def memoryBackend : Backend Watcher MemoryStore where
  write now c s := s.write now c
  read now key s := let (r, s) := s.read now key; (.ok r, s)
  scan now r s := let (r, s) := s.scan now r; (.ok r, s)
  watch lead s := (.ok (Watcher.subscribe s lead), s)
  next w s := (w.ask true s.events, s)
  hasNews w s := decide (w.position < s.events.size)
  sweep now s := (s.expireDue now).2

/-!
## A cluster with given replies
-/

/-- The replies to come, and the requests that arrived. -/
structure Script where
  replies : List Etcd.Outcome
  requests : List Etcd.HttpRequest

/-- What a cluster replies when nothing has been given. -/
def Script.exhausted : Etcd.Outcome :=
  .response 500 none (.whole "script exhausted")

def Script.refused : Etcd.Outcome :=
  .failed false true "connection refused"

/-- Requests arrive at one host and port, and are refused everywhere else. -/
def Script.send (host : Url.Host) (port : Nat) : Etcd.Transport Script :=
  fun r s =>
    if r.host = host ∧ r.port = some port then
      (s.replies.headD Script.exhausted,
        { replies := s.replies.tail, requests := s.requests ++ [r] })
    else (Script.refused, s)

def Script.refuse : Etcd.Transport Script :=
  fun _ s => (Script.refused, s)

/-- A watcher that got no reply will never get one. -/
def scriptBackend (c : Etcd.Client) (send : Etcd.Transport Script) :
    Backend Etcd.Watcher Script where
  write _ command := c.write send command
  read _ key := c.read send key
  scan _ r := c.scan send r
  watch lead := c.watch send lead
  next w s := w.next c send (s.replies.length + 1) s
  hasNews _ _ := false
  sweep _ s := s

end FairLease.Simulation
