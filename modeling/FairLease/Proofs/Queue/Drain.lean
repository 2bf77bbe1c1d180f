import FairLease.Proofs.Queue.Wakeup

/-!
# Giving up after a shutdown

A consumer that finds nothing looks next whether the queue is shut down. What is
added in between, just before a shutdown, is left behind by a consumer that then
gives up. It gives up at a queue that is drained exactly if nothing is left
behind.
-/

namespace FairLease
namespace Consumer

variable {α : Type} [DecidableEq α] [Hashable α]

theorem taking_of_step_checking {isCancelled : Bool} {c : Consumer α}
    {q : WorkQueue α} {heard : Nat}
    (h : (c.step isCancelled q).1 = .checking heard) :
    c = .taking heard ∧ q.items = [] := by
  cases c with
  | registering | returned => cases h
  | taking began =>
      rcases q.tryGet_cases with ⟨hempty, hget⟩ | ⟨item, rest, _, hget⟩
      · rw [step, hget] at h
        cases h
        exact ⟨rfl, hempty⟩
      · rw [step, hget] at h
        cases h
  | checking began => cases hshut : q.isShutDown <;> simp [step, hshut] at h
  | waiting began =>
      cases isCancelled with
      | true => cases h
      | false => by_cases hheard : began < q.wakeups <;> simp [step, hheard] at h

theorem checking_of_step_returned {c : Consumer α} {q : WorkQueue α}
    (hunanswered : c.answer? = none) (h : (c.step false q).1 = .returned none) :
    (exists heard, c = .checking heard) ∧ q.isShutDown = true := by
  cases c with
  | registering => cases h
  | returned item => cases hunanswered
  | taking heard =>
      rcases q.tryGet_cases with ⟨_, hget⟩ | ⟨item, rest, _, hget⟩
      · rw [step, hget] at h
        cases h
      · rw [step, hget] at h
        cases h
  | checking heard =>
      cases hshut : q.isShutDown with
      | true => exact ⟨⟨heard, rfl⟩, rfl⟩
      | false => simp [step, hshut] at h
  | waiting heard => by_cases hheard : heard < q.wakeups <;> simp [step, hheard] at h

end Consumer

namespace Depot

variable {α : Type} [DecidableEq α] [Hashable α] {steps : List (Step α)}

/-!
# Tokens

A token that nobody cancels never fires.
-/

theorem isFired_step {s : Depot α} {step : Step α} {token : Nat}
    (h : (s.step step).isFired token = true) :
    step = .cancel token ∨ s.isFired token = true := by
  cases step with
  | add | push | tryGet | get | shutDown | close => exact Or.inr h
  | cancel other =>
      have hmem : token ∈ other :: s.fired := List.contains_iff_mem.mp h
      rcases List.mem_cons.mp hmem with rfl | hbefore
      · exact Or.inl rfl
      · exact Or.inr (List.contains_iff_mem.mpr hbefore)
  | notify =>
      rcases s.notify_cases with hsame | ⟨owed, _, hcall⟩
      · rw [hsame] at h
        exact Or.inr h
      · rw [hcall] at h
        exact Or.inr h
  | proceed j notices =>
      cases hcall : s.calls[j]? with
      | none =>
          rw [step_proceed_of_none hcall] at h
          exact Or.inr h
      | some p =>
          rw [step_proceed hcall] at h
          exact Or.inr h

theorem isFired_after_eq_false {token : Nat}
    (hnever : Step.cancel token ∉ steps) (n : Nat) :
    (after steps n).isFired token = false := by
  induction n with
  | zero => rfl
  | succ n ih =>
      cases hn : steps[n]? with
      | none =>
          rw [after_succ_of_none hn]
          exact ih
      | some step =>
          rw [after_succ hn, ← Bool.not_eq_true]
          intro hfired
          rcases isFired_step hfired with rfl | hbefore
          · exact hnever (List.mem_of_getElem? hn)
          · rw [ih] at hbefore
            cases hbefore

/-!
# Calls that give up

Such a call has found the queue empty and later sees that it is shut down.
-/

/-- Step `m` is a call for an item, the `j`-th, and step `n` is its return
without one. -/
structure GivesUp (steps : List (Step α)) (j token m n : Nat) : Prop where
  begins : steps[m]? = some (.get token)
  number : (after steps m).calls.size = j
  pending : exists c : Consumer α, (after steps n).calls[j]? = some (token, c) ∧
    c.answer? = none
  returns : (after steps (n + 1)).calls[j]? = some (token, .returned none)

theorem isSome_call_after {j m n : Nat} (hmn : m ≤ n)
    (h : ((after steps m).calls[j]?).isSome = true) :
    ((after steps n).calls[j]?).isSome = true := by
  refine stateAt_related
    (R := fun s t : Depot α => (s.calls[j]?).isSome = true ->
      (t.calls[j]?).isSome = true)
    (fun _ hs => hs) (fun hst htu hs => htu (hst hs)) ?_ empty steps hmn h
  intro s step hs
  rcases Option.isSome_iff_exists.mp hs with ⟨⟨token, c⟩, hcall⟩
  rcases call_step hcall step with ⟨d, hd, _⟩
  exact Option.isSome_iff_exists.mpr ⟨_, hd⟩

/-- A call that looks for a shutdown has found the queue empty. -/
theorem checking_history {j token heard n : Nat}
    (h : (after steps n).calls[j]? = some (token, .checking heard)) :
    exists t, t < n ∧ (after steps t).queue.items = [] ∧
      (after steps t).calls[j]? = some (token, .taking heard) := by
  induction n with
  | zero => simp [after, empty] at h
  | succ n ih =>
      have hbefore (hsame : (after steps n).calls[j]? =
          some (token, .checking heard)) :
          exists t, t < n + 1 ∧ (after steps t).queue.items = [] ∧
            (after steps t).calls[j]? = some (token, .taking heard) := by
        rcases ih hsame with ⟨t, ht, hempty, htaking⟩
        exact ⟨t, Nat.lt_succ_of_lt ht, hempty, htaking⟩
      cases hn : steps[n]? with
      | none =>
          rw [after_succ_of_none hn] at h
          exact hbefore h
      | some step =>
          rw [after_succ hn] at h
          cases hcall : (after steps n).calls[j]? with
          | none => cases call_step_of_none hcall h
          | some p =>
              rcases p with ⟨owner, c⟩
              rcases call_step hcall step with ⟨d, hd, hnext⟩
              cases hd.symm.trans h
              rcases hnext with hsame | ⟨notices, _, hmoved⟩
              · exact hbefore (by rw [hcall, ← hsame])
              · rcases Consumer.taking_of_step_checking hmoved.symm with
                  ⟨rfl, hempty⟩
                exact ⟨n, Nat.lt_succ_self n, hempty, hcall⟩

theorem GivesUp.history {j token m n : Nat} (h : GivesUp steps j token m n)
    (hnever : Step.cancel token ∉ steps) :
    (after steps n).queue.isShutDown = true ∧
      exists t, m < t ∧ t < n ∧ (after steps t).queue.items = [] := by
  rcases h.pending with ⟨c, hcall, hunanswered⟩
  have hreturns := h.returns
  cases hn : steps[n]? with
  | none =>
      rw [after_succ_of_none hn, hcall] at hreturns
      cases hreturns
      cases hunanswered
  | some step =>
      rw [after_succ hn] at hreturns
      rcases call_step hcall step with ⟨d, hd, hnext⟩
      cases hd.symm.trans hreturns
      rcases hnext with rfl | ⟨notices, _, hmoved⟩
      · cases hunanswered
      · rw [isFired_after_eq_false hnever, Bool.and_false] at hmoved
        rcases Consumer.checking_of_step_returned hunanswered hmoved.symm with
          ⟨⟨heard, rfl⟩, hshut⟩
        rcases checking_history hcall with ⟨t, htn, hempty, htaking⟩
        refine ⟨hshut, t, Nat.lt_of_not_le ?_, htn, hempty⟩
        -- before step `m` there was no call of this number
        intro htm
        have hknown :=
          isSome_call_after htm (Option.isSome_iff_exists.mpr ⟨_, htaking⟩)
        simp [← h.number] at hknown

/-!
# Drained queues
-/

theorem handedOut_prefix {m n : Nat} (hmn : m ≤ n) :
    handedOut steps m <+: handedOut steps n := by
  induction hmn with
  | refl => exact List.prefix_refl _
  | @step n _ ih =>
      rw [handedOut_succ]
      exact ih.trans (List.prefix_append _ _)

/-- What is queued was accepted after the queue was empty. -/
theorem accepted_eq_append {m n : Nat} (hmn : m ≤ n)
    (hempty : (after steps m).queue.items = []) :
    exists served, accepted steps n =
      accepted steps m ++ (served ++ (after steps n).queue.items) := by
  have hprefix : handedOut steps m <+: handedOut steps n := handedOut_prefix hmn
  rcases hprefix with ⟨served, hserved⟩
  refine ⟨served, ?_⟩
  rw [← handedOut_append_items n, ← handedOut_append_items m, hempty,
    List.append_nil, ← hserved, List.append_assoc]

theorem items_after_of_drained {m n : Nat} (hmn : m ≤ n)
    (hshut : (after steps m).queue.isShutDown = true)
    (hempty : (after steps m).queue.items = []) :
    (after steps n).queue.items = [] := by
  rcases accepted_eq_append hmn hempty with ⟨served, haccepted⟩
  rw [accepted_after_of_isShutDown hmn hshut, List.self_eq_append_right,
    List.append_eq_nil_iff] at haccepted
  exact haccepted.right

/-- Any producers and consumers use a new queue, in any order of their steps. If
a call that is never cancelled returns without an item, then (1) the queue is
shut down; (2) earlier during the call it was empty, and what is left in it was
accepted since; (3) it was shut down and empty at once at some moment of the
call exactly if nothing is left. -/
theorem gives_up_when_drained_iff {j token m n : Nat}
    (h : GivesUp steps j token m n) (hnever : Step.cancel token ∉ steps) :
    (after steps n).queue.isShutDown = true ∧
    (exists t added, m < t ∧ t < n ∧ (after steps t).queue.items = [] ∧
      accepted steps n = accepted steps t ++ added ∧
      (after steps (n + 1)).queue.items <:+ added) ∧
    ((exists k, m < k ∧ k ≤ n + 1 ∧ (after steps k).queue.isShutDown = true ∧
        (after steps k).queue.items = []) <->
      (after steps (n + 1)).queue.items = []) := by
  rcases h.history hnever with ⟨hshut, t, hmt, htn, hempty⟩
  have hshut' := isShutDown_after_of_le (Nat.le_succ n) hshut
  refine ⟨hshut, ?_, ?_, ?_⟩
  · rcases accepted_eq_append (Nat.le_of_lt (Nat.lt_succ_of_lt htn)) hempty with
      ⟨served, haccepted⟩
    rw [accepted_after_of_isShutDown (Nat.le_succ n) hshut] at haccepted
    exact ⟨t, _, hmt, htn, hempty, haccepted, List.suffix_append _ _⟩
  · rintro ⟨k, _, hkn, hclosed, hdrained⟩
    exact items_after_of_drained hkn hclosed hdrained
  · intro hnothing
    exact ⟨n + 1, by omega, Nat.le_refl _, hshut', hnothing⟩

/-- Two consumers are there when an item is added and the queue is shut down.
The first was waiting and gets the item, and the second gives up. -/
def drainingSteps : List (Step Nat) :=
  [.get 0, .get 1, .proceed 0 false, .proceed 0 false, .proceed 0 false, .add 7,
    .shutDown, .proceed 0 false, .proceed 0 false, .proceed 0 false,
    .proceed 1 false, .proceed 1 false, .proceed 1 false]

theorem gives_up_when_drained_iff_drainingSteps :
    GivesUp drainingSteps 1 1 1 12 ∧ Step.cancel 1 ∉ drainingSteps ∧
    (after drainingSteps 13).calls = #[(0, .returned (some 7)),
      (1, .returned none)] ∧
    exists k, 1 < k ∧ k ≤ 13 ∧ (after drainingSteps k).queue.isShutDown = true ∧
      (after drainingSteps k).queue.items = [] := by
  have hgives : GivesUp drainingSteps 1 1 1 12 := by
    constructor <;> simp [drainingSteps, after, stateAt, step, empty, call,
      isFired, Consumer.step, Consumer.answer?, WorkQueue.empty, WorkQueue.add,
      WorkQueue.tryGet, WorkQueue.shutDown]
  have hnever : Step.cancel 1 ∉ drainingSteps := by decide
  rcases gives_up_when_drained_iff hgives hnever with ⟨_, _, hdrained⟩
  refine ⟨hgives, hnever, ?_, hdrained.mpr ?_⟩
  · simp [drainingSteps, after, stateAt, step, empty, call, isFired,
      Consumer.step, WorkQueue.empty, WorkQueue.add, WorkQueue.tryGet,
      WorkQueue.shutDown]
  · simp [drainingSteps, after, stateAt, step, empty, call, isFired,
      Consumer.step, WorkQueue.empty, WorkQueue.add, WorkQueue.tryGet,
      WorkQueue.shutDown]

/-- The only consumer finds nothing. Then an item is added and the queue is shut
down before the consumer looks for a shutdown. -/
def leavingSteps : List (Step Nat) :=
  [.get 0, .proceed 0 false, .proceed 0 false, .add 7, .shutDown,
    .proceed 0 false]

/-- A call that is never cancelled may return without an item though the queue
was never shut down and empty at once, and leave behind an item that was
accepted before the shutdown. -/
theorem accepted_item_left_behind :
    GivesUp leavingSteps 0 0 0 5 ∧ Step.cancel 0 ∉ leavingSteps ∧
    accepted leavingSteps 4 = [7] ∧ (after leavingSteps 6).queue.items = [7] ∧
    ¬ exists k, 0 < k ∧ k ≤ 6 ∧ (after leavingSteps k).queue.isShutDown = true ∧
      (after leavingSteps k).queue.items = [] := by
  have hleft : (after leavingSteps 6).queue.items = [7] := by
    simp [leavingSteps, after, stateAt, step, empty, call, Consumer.step,
      WorkQueue.empty, WorkQueue.add, WorkQueue.tryGet, WorkQueue.shutDown]
  refine ⟨?_, by decide, ?_, hleft, ?_⟩
  · constructor <;> simp [leavingSteps, after, stateAt, step, empty, call,
      Consumer.step, Consumer.answer?, WorkQueue.empty, WorkQueue.add,
      WorkQueue.tryGet, WorkQueue.shutDown]
  · simp [accepted, accepted?, leavingSteps, after, stateAt, List.range_succ,
      step, empty, call, Consumer.step, WorkQueue.empty, WorkQueue.add,
      WorkQueue.tryGet]
  · rintro ⟨k, _, hk, hshut, hempty⟩
    have hnothing := items_after_of_drained hk hshut hempty
    rw [hleft] at hnothing
    cases hnothing

end Depot
end FairLease
