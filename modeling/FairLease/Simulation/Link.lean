import FairLease.Store.Memory

/-!
# Faulty links to a store

In a simulation every call that a node makes to its store passes a link, which
counts it and may delay it, answer it with an error, or hold its answer back.
Faults are queued for each kind of call and used up in order.
-/

namespace FairLease.Simulation

/-- A call to a store. `W` is the type of its watchers. -/
inductive StoreCall (W : Type) where
  | write (command : Command)
  | read (key : String)
  | scan (request : ScanRequest)
  | watch (lead : String)
  | next (w : W)

/-- The answer to a call. A watcher is returned as it is after the call. -/
inductive StoreReply (W : Type) where
  | written (result : Except StoreError WriteResult)
  | found (result : Except StoreError ReadResult)
  | listed (result : Except StoreError ScanResult)
  | subscribed (result : Except StoreError W)
  | notified (result : Except StoreError Event) (w : W)

def StoreCall.kind {W : Type} : StoreCall W -> String
  | write (.createWithTtl _ _ _) => "create"
  | write (.compareAndSwapWithTtl _ _ _ _) => "cas"
  | write _ => "write"
  | read _ => "read"
  | scan _ => "scan"
  | watch _ => "watch"
  | next _ => "next"

def StoreCall.failure {W : Type} (e : StoreError) : StoreCall W -> StoreReply W
  | write _ => .written (.error e)
  | read _ => .found (.error e)
  | scan _ => .listed (.error e)
  | watch _ => .subscribed (.error e)
  | next w => .notified (.error e) w

/-- What happens to one call. Only questions for the next event can be answered
with one. -/
structure Fault where
  beforeMs : Nat
  error : Option StoreError
  event : Option Event
  afterMs : Nat

def Fault.none : Fault :=
  { beforeMs := 0, error := Option.none, event := Option.none, afterMs := 0 }

structure Link where
  faults : Table (List Fault)
  calls : Table Nat

namespace Link

def clear : Link :=
  ⟨∅, ∅⟩

def queue (kind : String) (faults : List Fault) (l : Link) : Link :=
  { l with faults := l.faults.insert kind ((l.faults[kind]?.getD []) ++ faults) }

def pass (kind : String) (l : Link) : Fault × Link :=
  let calls := l.calls.insert kind (l.calls[kind]?.getD 0 + 1)
  match l.faults[kind]? with
  | some (fault :: rest) => (fault, { calls, faults := l.faults.insert kind rest })
  | _ => (.none, { l with calls })

end Link
end FairLease.Simulation
