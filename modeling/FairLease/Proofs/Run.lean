/-!
# Runs

A run is a list of steps that a system takes one after the other. What every
step keeps holds after any number of steps, and what relates the state before
a step to the state after it relates any earlier state to any later one.
-/

namespace FairLease

variable {State Step : Type}

def stateAt (next : State -> Step -> State) (start : State) (steps : List Step)
    (n : Nat) : State :=
  (steps.take n).foldl next start

@[simp] theorem stateAt_zero (next : State -> Step -> State) (start : State)
    (steps : List Step) : stateAt next start steps 0 = start := rfl

theorem stateAt_succ {next : State -> Step -> State} {start : State}
    {steps : List Step} {n : Nat} {step : Step} (h : steps[n]? = some step) :
    stateAt next start steps (n + 1) =
      next (stateAt next start steps n) step := by
  unfold stateAt
  rw [List.take_add_one, h, List.foldl_append]
  rfl

theorem stateAt_succ_of_none {next : State -> Step -> State} {start : State}
    {steps : List Step} {n : Nat} (h : steps[n]? = none) :
    stateAt next start steps (n + 1) = stateAt next start steps n := by
  unfold stateAt
  rw [List.take_add_one, h, Option.toList_none, List.append_nil]

theorem stateAt_of_length_le {next : State -> Step -> State} {start : State}
    {steps : List Step} {n : Nat} (h : steps.length ≤ n) :
    stateAt next start steps n = stateAt next start steps steps.length := by
  unfold stateAt
  rw [List.take_of_length_le h, List.take_length]

theorem stateAt_invariant
    {next : State -> Step -> State} {start : State} {P : State -> Prop}
    (hstart : P start) (hnext : forall s step, P s -> P (next s step))
    (steps : List Step) (n : Nat) :
    P (stateAt next start steps n) := by
  induction n with
  | zero =>
      exact hstart
  | succ n ih =>
      cases h : steps[n]? with
      | none =>
          rw [stateAt_succ_of_none h]
          exact ih
      | some step =>
          rw [stateAt_succ h]
          exact hnext _ step ih

theorem stateAt_related
    {next : State -> Step -> State} {R : State -> State -> Prop}
    (hrefl : forall s, R s s) (htrans : forall {s t u}, R s t -> R t u -> R s u)
    (hnext : forall s step, R s (next s step))
    (start : State) (steps : List Step) {m n : Nat} (hmn : m ≤ n) :
    R (stateAt next start steps m) (stateAt next start steps n) := by
  induction hmn with
  | refl =>
      exact hrefl _
  | @step n _ ih =>
      cases h : steps[n]? with
      | none =>
          rw [stateAt_succ_of_none h]
          exact ih
      | some step =>
          rw [stateAt_succ h]
          exact htrans ih (hnext _ step)

end FairLease
