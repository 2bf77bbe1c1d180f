import Std.Data.HashSet

/-!
# Work queues

A queue of items in the order they were added, without repetitions: an item
that is already pending is not added again. Once it is shut down a queue takes
no more items, but still hands out those it has. `wakeups` counts the times
that waiting consumers were told to look again.
-/

namespace FairLease

structure WorkQueue (α : Type) [DecidableEq α] [Hashable α] where
  items : List α
  pending : Std.HashSet α
  isShutDown : Bool
  wakeups : Nat

namespace WorkQueue

variable {α : Type} [DecidableEq α] [Hashable α]

def empty : WorkQueue α :=
  ⟨[], ∅, false, 0⟩

/-- Add an item, unless it is pending already or the queue is shut down. The
answer says whether it was added. -/
def add (q : WorkQueue α) (item : α) : Bool × WorkQueue α :=
  if q.isShutDown || q.pending.contains item then (false, q)
  else
    (true, { q with
      items := q.items ++ [item], pending := q.pending.insert item,
      wakeups := q.wakeups + 1 })

def tryGet (q : WorkQueue α) : Option α × WorkQueue α :=
  match q.items with
  | [] => (none, q)
  | item :: rest => (some item, { q with items := rest, pending := q.pending.erase item })

def drain (q : WorkQueue α) : List α × WorkQueue α :=
  (q.items, { q with items := [], pending := ∅ })

def shutDown (q : WorkQueue α) : WorkQueue α :=
  { q with isShutDown := true, wakeups := q.wakeups + 1 }

end WorkQueue
end FairLease
