import FairLease.Queue.Basic

/-!
# Consumers of a work queue

A consumer that wants an item first notes how often the queue has called its
consumers, then tries to take an item, then looks whether the queue is shut
down, and only then waits: for a call it has not yet heard, or for its own
cancellation. Each of these is a step of its own, and others may act between
any two of them.
-/

namespace FairLease

inductive Consumer (α : Type) where
  | registering
  | taking (heard : Nat)
  | checking (heard : Nat)
  | waiting (heard : Nat)
  /-- The answer: an item, or none because of a shutdown or a cancellation. -/
  | returned (item : Option α)
  deriving DecidableEq, Repr

namespace Consumer

variable {α : Type} [DecidableEq α] [Hashable α]

/-- One step of a consumer. A consumer that waits for nothing that has happened
stays as it is. -/
def step (isCancelled : Bool) (c : Consumer α) (q : WorkQueue α) :
    Consumer α × WorkQueue α :=
  match c with
  | registering => (taking q.wakeups, q)
  | taking heard =>
      match q.tryGet with
      | (some item, q) => (returned (some item), q)
      | (none, q) => (checking heard, q)
  | checking heard => (if q.isShutDown then returned none else waiting heard, q)
  | waiting heard =>
      if isCancelled then (returned none, q)
      else if heard < q.wakeups then (registering, q)
      else (waiting heard, q)
  | returned item => (returned item, q)

def canStep (isCancelled : Bool) (c : Consumer α) (q : WorkQueue α) : Bool :=
  match c with
  | waiting heard => isCancelled || decide (heard < q.wakeups)
  | returned _ => false
  | _ => true

/-- The consumer goes on until it has its answer or waits for something that has
not happened: at most four steps while nobody else acts. -/
def settle (isCancelled : Bool) (c : Consumer α) (q : WorkQueue α) :
    Consumer α × WorkQueue α :=
  let once := fun (state : Consumer α × WorkQueue α) =>
    state.1.step isCancelled state.2
  once (once (once (once (c, q))))

/-- Consumers go on in turn, each of them with a token by which it is
cancelled. -/
def settleAll {τ : Type} (isCancelled : τ -> Bool) :
    List (τ × Consumer α) -> WorkQueue α -> List (τ × Consumer α) × WorkQueue α
  | [], q => ([], q)
  | (token, c) :: rest, q =>
      let (c, q) := c.settle (isCancelled token) q
      let (rest, q) := settleAll isCancelled rest q
      ((token, c) :: rest, q)

def answer? (c : Consumer α) : Option (Option α) :=
  match c with
  | returned item => some item
  | _ => none

end Consumer
end FairLease
