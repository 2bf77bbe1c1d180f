import FairLease.Etcd.Client

/-!
# Watching a cluster

A watcher asks for the first change at or after an index and waits for it
without a timeout. Each reply moves the index past the change it reports. A
cluster that no longer remembers the index names one to go on from.
-/

namespace FairLease.Etcd

structure Watcher where
  lead : String
  /-- The index of the first change asked for; without one, whatever comes
  next. -/
  waitIndex : Option Nat
  deriving DecidableEq, Repr

/-- Indices stay at the largest number of 64 bits. -/
def indexAfter (index : Nat) : Nat :=
  min (index + 1) (wordSize 64 - 1)

def KeyRequest.ofPoll (w : Watcher) : KeyRequest :=
  ⟨.get, w.lead,
    [("wait", "true"), ("recursive", "true")]
      ++ (w.waitIndex.map (fun index => ("waitIndex", toString index))).toList,
        []⟩

inductive Poll where
  | event (e : Event)
  /-- Something happened that is no change of a key. -/
  | again
  | failed (e : StoreError)
  | endless
  deriving DecidableEq, Repr

namespace Watcher

def receive (w : Watcher) (x : Exchange) : Poll × Watcher :=
  match x.reply with
  | .success response =>
      let w := { w with waitIndex := some (indexAfter response.node.modifiedIndex) }
      match response.event? with
      | some e => (.event e, w)
      | none => (.again, w)
  | .failure e =>
      if e.code == ErrorBody.historyCleared then
        (.again, { w with waitIndex := (x.clusterIndex.orElse fun _ => e.index).map indexAfter })
      else (.failed e.toStoreError, w)

variable {σ : Type} (c : Client) (send : Transport σ)

def poll (w : Watcher) : StateM σ (Poll × Watcher) := do
  let outcome ← contact send (.ofPoll w) c.endpoints
  if outcome.isEndless then return (.endless, w)
  match outcome.result c.timeoutMs with
  | .error e => return (.failed e, w)
  | .ok x => return w.receive x

/-- The next change, or `none` while there is none to be had. At most `tries`
polls are made. -/
def next (tries : Nat) (w : Watcher) :
    StateM σ (Option (Except StoreError Event) × Watcher) :=
  match tries with
  | 0 => return (none, w)
  | tries + 1 => do
      match ← w.poll c send with
      | (.event e, w) => return (some (.ok e), w)
      | (.failed e, w) => return (some (.error e), w)
      | (.endless, w) => return (none, w)
      | (.again, w) => next tries w

end Watcher

/-- Subscribe at the index of the cluster, so that no later change is missed. -/
def Client.watch {σ : Type} (c : Client) (send : Transport σ) (lead : String) :
    StateM σ (Except StoreError Watcher) := do
  match ← c.exchange send (.ofRead lead) with
  | .error e => return .error e
  | .ok x => return .ok ⟨lead, x.clusterIndex.map indexAfter⟩

end FairLease.Etcd
