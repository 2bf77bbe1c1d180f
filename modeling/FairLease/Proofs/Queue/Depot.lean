import FairLease.Proofs.Run
import FairLease.Proofs.Queue.Pending

/-!
# Queues in use

A depot is a queue with everybody who uses it: producers, consumers that wait
for an item, and those who take what is there. An addition changes the queue
while it is locked and calls the waiting consumers afterwards, and so does a
shutdown, so that others may act in between. What was handed out and what is
still queued is at any time what was accepted, in this order.
-/

namespace FairLease
namespace WorkQueue

variable {α : Type} [DecidableEq α] [Hashable α]

/-!
# Single operations
-/

def push (q : WorkQueue α) (item : α) : Bool × WorkQueue α :=
  ((q.add item).1, { (q.add item).2 with wakeups := q.wakeups })

def close (q : WorkQueue α) : WorkQueue α :=
  { q with isShutDown := true }

def notify (q : WorkQueue α) : WorkQueue α :=
  { q with wakeups := q.wakeups + 1 }

/-- An addition is its locked part, and then a call if there is something to
call for. -/
theorem add_eq (q : WorkQueue α) (item : α) :
    q.add item =
      ((q.push item).1, if (q.push item).1 then (q.push item).2.notify
        else (q.push item).2) := by
  unfold push
  rcases q.add_cases item with ⟨_, hadd⟩ | ⟨_, _, hadd⟩
  · rw [hadd]
    rfl
  · rw [hadd]
    rfl

theorem shutDown_eq (q : WorkQueue α) : q.shutDown = q.close.notify := rfl

theorem IsConsistent.add_eq_false_iff {q : WorkQueue α} (h : q.IsConsistent)
    (item : α) :
    (q.add item).1 = false <-> item ∈ q.items ∨ q.isShutDown = true := by
  rw [← h.known item]
  rcases q.add_cases item with ⟨hwhy, hadd⟩ | ⟨hopen, hnew, hadd⟩
  · rw [hadd]
    exact iff_of_true rfl hwhy.symm
  · rw [hadd, hopen, hnew]
    simp

theorem items_add (q : WorkQueue α) (item : α) :
    (q.add item).2.items = q.items ++ if (q.add item).1 then [item]
    else [] := by
  rcases q.add_cases item with ⟨_, hadd⟩ | ⟨_, _, hadd⟩
  · rw [hadd]
    exact (List.append_nil _).symm
  · rw [hadd]
    rfl

theorem items_tryGet (q : WorkQueue α) :
    q.tryGet.1.toList ++ q.tryGet.2.items = q.items := by
  rcases q.tryGet_cases with ⟨_, hget⟩ | ⟨item, rest, hitems, hget⟩
  · rw [hget]
    rfl
  · rw [hget, hitems]
    rfl

theorem tryGet_of_items {q : WorkQueue α} {item : α} {rest : List α}
    (hitems : q.items = item :: rest) : q.tryGet.1 = some item := by
  simp [tryGet, hitems]

theorem isShutDown_tryGet (q : WorkQueue α) :
    q.tryGet.2.isShutDown = q.isShutDown := by
  rcases q.tryGet_cases with ⟨_, hget⟩ | ⟨item, rest, _, hget⟩
  · rw [hget]
  · rw [hget]

theorem IsConsistent.tryGet {q : WorkQueue α} (h : q.IsConsistent) :
    q.tryGet.2.IsConsistent := by
  rcases q.tryGet_cases with ⟨_, hget⟩ | ⟨item, rest, hitems, hget⟩
  · rw [hget]
    exact h
  · rw [hget]
    exact isConsistent_erase h hitems

end WorkQueue

namespace Consumer

variable {α : Type} [DecidableEq α] [Hashable α]

def outcome? (isCancelled : Bool) (c : Consumer α) (q : WorkQueue α) :
    Option α :=
  if c.answer?.isNone then (c.step isCancelled q).1.answer?.join else none

theorem taking_or_unchanged (isCancelled : Bool) (c : Consumer α)
    (q : WorkQueue α) :
    (exists heard, c = .taking heard ∧ c.outcome? isCancelled q = q.tryGet.1 ∧
        (c.step isCancelled q).2 = q.tryGet.2) ∨
      (c.outcome? isCancelled q = none ∧ (c.step isCancelled q).2 = q) := by
  cases c with
  | registering => exact Or.inr ⟨rfl, rfl⟩
  | taking heard =>
      refine Or.inl ⟨heard, rfl, ?_⟩
      rcases q.tryGet_cases with ⟨_, hget⟩ | ⟨item, rest, _, hget⟩
      · simp [outcome?, answer?, step, hget]
      · simp [outcome?, answer?, step, hget]
  | checking heard =>
      cases hshut : q.isShutDown with
      | true => exact Or.inr (by simp [outcome?, answer?, step, hshut])
      | false => exact Or.inr (by simp [outcome?, answer?, step, hshut])
  | waiting heard =>
      cases isCancelled with
      | true => exact Or.inr ⟨rfl, rfl⟩
      | false => by_cases hheard : heard < q.wakeups <;> simp [outcome?, answer?, step, hheard]
  | returned item => exact Or.inr ⟨rfl, rfl⟩

end Consumer

/-!
# Depots
-/

structure Depot (α : Type) [DecidableEq α] [Hashable α] where
  queue : WorkQueue α
  /-- Every call for an item that was ever made, with the token by which it is
  cancelled. -/
  calls : Array (Nat × Consumer α)
  fired : List Nat
  /-- How many additions and shutdowns have changed the queue and not yet called
  anybody. -/
  owed : Nat

namespace Depot

variable {α : Type} [DecidableEq α] [Hashable α]

inductive Step (α : Type) where
  | add (item : α)
  | push (item : α)
  | tryGet
  | get (token : Nat)
  /-- A call for an item goes on, and may notice that it has been cancelled. -/
  | proceed (j : Nat) (notices : Bool)
  | cancel (token : Nat)
  | shutDown
  | close
  /-- An addition or a shutdown that has changed the queue calls the waiting
  consumers. -/
  | notify
  deriving DecidableEq, Repr

def empty : Depot α :=
  ⟨.empty, #[], [], 0⟩

def isFired (s : Depot α) (token : Nat) : Bool :=
  s.fired.contains token

def call (s : Depot α) (j : Nat) (notices : Bool) (token : Nat)
    (c : Consumer α) : Depot α :=
  let next := c.step (notices && s.isFired token) s.queue
  { s with queue := next.2, calls := s.calls.setIfInBounds j (token, next.1) }

def step (s : Depot α) : Step α -> Depot α
  | .add item => { s with queue := (s.queue.add item).2 }
  | .push item =>
      { s with
        queue := (s.queue.push item).2
        owed := if (s.queue.push item).1 then s.owed + 1 else s.owed }
  | .tryGet => { s with queue := s.queue.tryGet.2 }
  | .get token => { s with calls := s.calls.push (token, .registering) }
  | .proceed j notices =>
      match s.calls[j]? with
      | some (token, c) => s.call j notices token c
      | none => s
  | .cancel token => { s with fired := token :: s.fired }
  | .shutDown => { s with queue := s.queue.shutDown }
  | .close => { s with queue := s.queue.close, owed := s.owed + 1 }
  | .notify =>
      match s.owed with
      | 0 => s
      | owed + 1 => { s with queue := s.queue.notify, owed }

def after (steps : List (Step α)) (n : Nat) : Depot α :=
  stateAt step empty steps n

/-!
# What goes in and out
-/

def accepted? (s : Depot α) : Step α -> Option α
  | .add item | .push item => if (s.queue.add item).1 then some item else none
  | _ => none

/-- The item that is handed out by a step, to one who takes it or to a call that
returns with it. -/
def handedOut? (s : Depot α) : Step α -> Option α
  | .tryGet => s.queue.tryGet.1
  | .proceed j notices =>
      match s.calls[j]? with
      | some (token, c) => c.outcome? (notices && s.isFired token) s.queue
      | none => none
  | _ => none

def Takes (s : Depot α) (step : Step α) : Prop :=
  step = .tryGet ∨
    exists j notices token heard, step = .proceed j notices ∧
      s.calls[j]? = some (token, .taking heard)

def accepted (steps : List (Step α)) (n : Nat) : List α :=
  (List.range n).filterMap (fun k => steps[k]?.bind (after steps k).accepted?)

def handedOut (steps : List (Step α)) (n : Nat) : List α :=
  (List.range n).filterMap (fun k => steps[k]?.bind (after steps k).handedOut?)

theorem notify_cases (s : Depot α) :
    s.step .notify = s ∨
      exists owed, s.owed = owed + 1 ∧
        s.step .notify = { s with queue := s.queue.notify, owed } := by
  cases howed : s.owed with
  | zero => exact Or.inl (by simp [step, howed])
  | succ owed => exact Or.inr ⟨owed, rfl, by simp [step, howed]⟩

theorem step_proceed {s : Depot α} {j token : Nat} {c : Consumer α}
    (hcall : s.calls[j]? = some (token, c)) (notices : Bool) :
    s.step (.proceed j notices) = s.call j notices token c := by
  simp [step, hcall]

theorem step_proceed_of_none {s : Depot α} {j : Nat}
    (hcall : s.calls[j]? = none) (notices : Bool) :
    s.step (.proceed j notices) = s := by
  simp [step, hcall]

theorem proceed_cases (s : Depot α) (j : Nat) (notices : Bool) :
    (s.handedOut? (.proceed j notices) = s.queue.tryGet.1 ∧
        (s.step (.proceed j notices)).queue = s.queue.tryGet.2) ∨
      (s.handedOut? (.proceed j notices) = none ∧
        (s.step (.proceed j notices)).queue = s.queue) := by
  cases hcall : s.calls[j]? with
  | none =>
      rw [step_proceed_of_none hcall]
      exact Or.inr ⟨by simp [handedOut?, hcall], rfl⟩
  | some p =>
      rcases p with ⟨token, c⟩
      rw [step_proceed hcall]
      simp only [handedOut?, hcall]
      rcases c.taking_or_unchanged (notices && s.isFired token) s.queue with
        ⟨_, _, houtcome, hqueue⟩ | ⟨houtcome, hqueue⟩
      · exact Or.inl ⟨houtcome, hqueue⟩
      · exact Or.inr ⟨houtcome, hqueue⟩

theorem isConsistent_step {s : Depot α} (h : s.queue.IsConsistent)
    (step : Step α) :
    (s.step step).queue.IsConsistent := by
  cases step with
  | add item => exact h.add item
  | push item => exact ⟨(h.add item).nodup, (h.add item).known⟩
  | tryGet => exact h.tryGet
  | get | cancel => exact h
  | shutDown | close => exact ⟨h.nodup, h.known⟩
  | notify =>
      rcases s.notify_cases with hsame | ⟨owed, _, hcall⟩
      · rw [hsame]
        exact h
      · rw [hcall]
        exact ⟨h.nodup, h.known⟩
  | proceed j notices =>
      rcases s.proceed_cases j notices with ⟨_, hqueue⟩ | ⟨_, hqueue⟩
      · rw [hqueue]
        exact h.tryGet
      · rw [hqueue]
        exact h

/-- What a step hands out comes from the front of the queue, and what it accepts
goes to the end. -/
theorem items_step (s : Depot α) (step : Step α) :
    (s.handedOut? step).toList ++ (s.step step).queue.items =
      s.queue.items ++ (s.accepted? step).toList := by
  have hadded (item : α) : (s.queue.add item).2.items =
      s.queue.items ++ (if (s.queue.add item).1 then some item
        else none).toList := by
    rw [s.queue.items_add item]
    cases (s.queue.add item).1 with
    | true => rfl
    | false => rfl
  cases step with
  | add item => exact hadded item
  | push item => exact hadded item
  | tryGet => exact s.queue.items_tryGet.trans (List.append_nil _).symm
  | get | cancel | shutDown | close => exact (List.append_nil _).symm
  | notify =>
      rcases s.notify_cases with hsame | ⟨owed, _, hcall⟩
      · rw [hsame]
        exact (List.append_nil _).symm
      · rw [hcall]
        exact (List.append_nil _).symm
  | proceed j notices =>
      rcases s.proceed_cases j notices with
        ⟨houtcome, hqueue⟩ | ⟨houtcome, hqueue⟩
      · rw [houtcome, hqueue]
        exact s.queue.items_tryGet.trans (List.append_nil _).symm
      · rw [houtcome, hqueue]
        exact (List.append_nil _).symm

def Step.shuts : Step α -> Bool
  | .shutDown | .close => true
  | _ => false

theorem isShutDown_step (s : Depot α) (step : Step α) :
    (s.step step).queue.isShutDown = (s.queue.isShutDown || step.shuts) := by
  cases step with
  | add item => simp [Depot.step, Step.shuts]
  | push item => simp [Depot.step, Step.shuts, WorkQueue.push]
  | tryGet => simp [Depot.step, Step.shuts, WorkQueue.isShutDown_tryGet]
  | get | cancel => simp [Depot.step, Step.shuts]
  | shutDown => simp [Depot.step, Step.shuts, WorkQueue.shutDown]
  | close => simp [Depot.step, Step.shuts, WorkQueue.close]
  | notify =>
      rcases s.notify_cases with hsame | ⟨owed, _, hcall⟩
      · rw [hsame]
        exact (Bool.or_false _).symm
      · rw [hcall]
        exact (Bool.or_false _).symm
  | proceed j notices =>
      rcases s.proceed_cases j notices with ⟨_, hqueue⟩ | ⟨_, hqueue⟩
      · rw [hqueue, WorkQueue.isShutDown_tryGet]
        exact (Bool.or_false _).symm
      · rw [hqueue]
        exact (Bool.or_false _).symm

/-!
# Histories
-/

section

variable {steps : List (Step α)}

theorem after_succ {n : Nat} {step : Step α} (h : steps[n]? = some step) :
    after steps (n + 1) = (after steps n).step step :=
  stateAt_succ h

theorem after_succ_of_none {n : Nat} (h : steps[n]? = none) :
    after steps (n + 1) = after steps n :=
  stateAt_succ_of_none h

theorem isConsistent_after (n : Nat) : (after steps n).queue.IsConsistent :=
  stateAt_invariant (P := fun s : Depot α => s.queue.IsConsistent)
    WorkQueue.isConsistent_empty (fun _ step hs =>
      isConsistent_step hs step) steps n

theorem accepted_succ (n : Nat) :
    accepted steps (n + 1) =
      accepted steps n ++
        (steps[n]?.bind (after steps n).accepted?).toList := by
  rw [accepted, List.range_succ, List.filterMap_append]
  cases hn : steps[n]?.bind (after steps n).accepted? with
  | none => simp [accepted, hn]
  | some item => simp [accepted, hn]

theorem handedOut_succ (n : Nat) :
    handedOut steps (n + 1) =
      handedOut steps n ++
        (steps[n]?.bind (after steps n).handedOut?).toList := by
  rw [handedOut, List.range_succ, List.filterMap_append]
  cases hn : steps[n]?.bind (after steps n).handedOut? with
  | none => simp [handedOut, hn]
  | some item => simp [handedOut, hn]

theorem handedOut_append_items (n : Nat) :
    handedOut steps n ++ (after steps n).queue.items = accepted steps n := by
  induction n with
  | zero => rfl
  | succ n ih =>
      rw [handedOut_succ, accepted_succ, ← ih]
      cases hn : steps[n]? with
      | none =>
          rw [after_succ_of_none hn]
          simp
      | some step =>
          rw [after_succ hn, Option.bind_some, Option.bind_some,
            List.append_assoc, List.append_assoc, items_step]

theorem isShutDown_after_iff (n : Nat) :
    (after steps n).queue.isShutDown = true <->
      exists k step, k < n ∧ steps[k]? = some step ∧ step.shuts = true := by
  induction n with
  | zero =>
      constructor
      · intro h
        cases h
      · rintro ⟨k, _, hk, _⟩
        cases hk
  | succ n ih =>
      have hlast : (after steps (n + 1)).queue.isShutDown = true <->
          (after steps n).queue.isShutDown = true ∨
            exists step, steps[n]? = some step ∧ step.shuts = true := by
        cases hn : steps[n]? with
        | none =>
            rw [after_succ_of_none hn]
            simp
        | some step =>
            rw [after_succ hn, isShutDown_step, Bool.or_eq_true]
            simp
      rw [hlast, ih]
      constructor
      · rintro (⟨k, step, hk, hstep, hshuts⟩ | ⟨step, hstep, hshuts⟩)
        · exact ⟨k, step, Nat.lt_succ_of_lt hk, hstep, hshuts⟩
        · exact ⟨n, step, Nat.lt_succ_self n, hstep, hshuts⟩
      · rintro ⟨k, step, hk, hstep, hshuts⟩
        rcases Nat.lt_succ_iff_lt_or_eq.mp hk with hlt | rfl
        · exact Or.inl ⟨k, step, hlt, hstep, hshuts⟩
        · exact Or.inr ⟨step, hstep, hshuts⟩

/-!
# After a shutdown
-/

theorem isShutDown_after_of_le {m n : Nat} (hmn : m ≤ n)
    (h : (after steps m).queue.isShutDown = true) :
    (after steps n).queue.isShutDown = true := by
  rw [isShutDown_after_iff] at h ⊢
  rcases h with ⟨k, step, hk, hstep, hshuts⟩
  exact ⟨k, step, Nat.lt_of_lt_of_le hk hmn, hstep, hshuts⟩

theorem accepted?_of_isShutDown {s : Depot α} (h : s.queue.isShutDown = true)
    (step : Step α) :
    s.accepted? step = none := by
  cases step with
  | add item | push item => simp [accepted?, WorkQueue.add, h]
  | _ => rfl

theorem accepted_after_of_isShutDown {m n : Nat} (hmn : m ≤ n)
    (h : (after steps m).queue.isShutDown = true) :
    accepted steps n = accepted steps m := by
  induction hmn with
  | refl => rfl
  | @step n hmn ih =>
      rw [accepted_succ, ih]
      cases hn : steps[n]? with
      | none => simp
      | some step =>
          simp [accepted?_of_isShutDown (isShutDown_after_of_le hmn h) step]

theorem handedOut?_of_items {s : Depot α} {item : α} {rest : List α}
    (hitems : s.queue.items = item :: rest) {step : Step α}
    (htakes : s.Takes step) :
    s.handedOut? step = some item := by
  rcases htakes with rfl | ⟨j, notices, token, heard, rfl, hcall⟩
  · exact WorkQueue.tryGet_of_items hitems
  · simp [handedOut?, hcall, Consumer.outcome?, Consumer.answer?, Consumer.step,
      WorkQueue.tryGet, hitems]

end

/-- Any producers and consumers use a new queue, in any order: (1) no item is
queued twice, and what is pending is what is queued; (2) what was handed out and
then what is queued are the accepted items in their order; (3) an item is
refused exactly if it is queued, or after a shutdown; (4) a shutdown leaves what
is queued, of which (5) all that is later handed out is the front, and (6) the
oldest item goes to whoever takes the next one. -/
theorem history_is_fifo (steps : List (Step α)) (n : Nat) :
    ((after steps n).queue.items.Nodup ∧
      forall item, (after steps n).queue.pending.contains item = true <->
        item ∈ (after steps n).queue.items) ∧
    handedOut steps n ++ (after steps n).queue.items = accepted steps n ∧
    (forall item, ((after steps n).queue.add item).1 = false <->
      item ∈ (after steps n).queue.items ∨
        exists k step, k < n ∧ steps[k]? = some step ∧ step.shuts = true) ∧
    (forall step : Step α, step.shuts = true ->
      ((after steps n).step step).queue.items = (after steps n).queue.items ∧
      ((after steps n).step step).queue.pending =
        (after steps n).queue.pending) ∧
    (forall m, n ≤ m -> (after steps n).queue.isShutDown = true ->
      handedOut steps m ++ (after steps m).queue.items =
        handedOut steps n ++ (after steps n).queue.items) ∧
    (forall item rest, (after steps n).queue.items = item :: rest ->
      forall step, (after steps n).Takes step ->
        (after steps n).handedOut? step = some item) := by
  have hconsistent : (after steps n).queue.IsConsistent := isConsistent_after n
  refine ⟨⟨hconsistent.nodup, hconsistent.known⟩, handedOut_append_items n,
    ?_, ?_, ?_, ?_⟩
  · intro item
    rw [hconsistent.add_eq_false_iff, isShutDown_after_iff]
  · intro step hshuts
    cases step with
    | shutDown | close => exact ⟨rfl, rfl⟩
    | _ => cases hshuts
  · intro m hnm hshut
    rw [handedOut_append_items, handedOut_append_items,
      accepted_after_of_isShutDown hnm hshut]
  · intro item rest hitems step htakes
    exact handedOut?_of_items hitems htakes

/-- A consumer finds nothing and waits while an item is added that is called for
late. It gets the item, which is then added anew, and the queue is shut down
with two items left. -/
def busySteps : List (Step Nat) :=
  [.get 0, .proceed 0 false, .proceed 0 false, .push 7, .proceed 0 false,
    .add 5, .add 7, .proceed 0 false, .notify, .proceed 0 false,
    .proceed 0 false, .add 7, .shutDown, .add 9, .tryGet]

theorem history_is_fifo_busySteps :
    handedOut busySteps 15 = [7, 5] ∧ (after busySteps 15).queue.items = [7] ∧
    handedOut busySteps 15 ++ (after busySteps 15).queue.items =
      accepted busySteps 15 ∧
    ((after busySteps 13).queue.add 9).1 = false ∧
    handedOut busySteps 15 ++ (after busySteps 15).queue.items =
      handedOut busySteps 13 ++ (after busySteps 13).queue.items ∧
    (after busySteps 14).handedOut? .tryGet = some 5 := by
  have hhanded : handedOut busySteps 15 = [7, 5] := by
    simp [handedOut, handedOut?, busySteps, after, stateAt, List.range_succ,
      step, empty, call, isFired, Consumer.outcome?, Consumer.answer?,
      Consumer.step, WorkQueue.empty, WorkQueue.push, WorkQueue.add,
      WorkQueue.tryGet, WorkQueue.shutDown, WorkQueue.notify]
  have hitems (n : Nat) (hn : n = 14 ∨ n = 15) :
      (after busySteps n).queue.items = if n = 14 then [5, 7] else [7] := by
    rcases hn with rfl | rfl <;>
    simp [busySteps, after, stateAt, step, empty, call, isFired, Consumer.step,
      WorkQueue.empty, WorkQueue.push, WorkQueue.add, WorkQueue.tryGet,
      WorkQueue.shutDown, WorkQueue.notify]
  have hshut : (after busySteps 13).queue.isShutDown = true :=
    (isShutDown_after_iff 13).mpr ⟨12, .shutDown, by decide, rfl, rfl⟩
  rcases history_is_fifo busySteps 13 with ⟨_, _, hrefused, _, hdrains, _⟩
  rcases history_is_fifo busySteps 14 with ⟨_, _, _, _, _, holdest⟩
  rcases history_is_fifo busySteps 15 with ⟨_, hfifo, _⟩
  refine ⟨hhanded, hitems 15 (Or.inr rfl), hfifo, ?_,
    hdrains 15 (by decide) hshut, ?_⟩
  · exact (hrefused 9).mpr (Or.inr ⟨12, .shutDown, by decide, rfl, rfl⟩)
  · exact holdest 5 [7] (hitems 14 (Or.inl rfl)) .tryGet (Or.inl rfl)

end Depot
end FairLease
