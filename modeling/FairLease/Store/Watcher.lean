import FairLease.Store.Memory

/-!
# Watching the in-memory store

A watcher is a position in the sequence of published events. The store retains
a fixed number of them: a watcher that falls further behind goes on at the
oldest retained event without being told.
-/

namespace FairLease

def watchCapacity : Nat :=
  1024

structure Watcher where
  lead : String
  /-- The number of published events the watcher is done with. -/
  position : Nat
  deriving DecidableEq, Repr

namespace Watcher

/-- A new watcher sees what is published from now on. -/
def subscribe (s : MemoryStore) (lead : String) : Watcher :=
  ⟨lead, s.events.size⟩

/-- The position after events that are no longer retained have been given up. -/
def resume (w : Watcher) (published : Nat) : Nat :=
  max w.position (published - watchCapacity)

/-- The first event under the namespace, and how many events it takes to get to
it. -/
def firstMatch (lead : String) : List Event -> Option Event × Nat
  | [] => (none, 0)
  | e :: rest =>
      if Text.startsWith e.key lead then (some e, 1)
      else ((firstMatch lead rest).1, (firstMatch lead rest).2 + 1)

/-- The next event, or `none` when the watcher has seen everything. -/
def next (w : Watcher) (events : Array Event) : Option Event × Watcher :=
  let start := w.resume events.size
  let found := firstMatch w.lead (events.extract start events.size).toList
  (found.1, { w with position := start + found.2 })

/-- What a watcher that asks is told: an event, nothing as long as there is
none, or that the store is gone. It learns the last only when it has seen
everything. -/
def ask (isOpen : Bool) (events : Array Event) (w : Watcher) :
    Option (Except StoreError Event) × Watcher :=
  match w.next events with
  | (some e, w) => (some (.ok e), w)
  | (none, w) => (if isOpen then none else some (.error .watchClosed), w)

end Watcher
end FairLease
