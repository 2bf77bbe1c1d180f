import FairLease.Proofs.Queue.Depot

/-!
# Waiting for a call

A consumer notes how often the queue has called before it looks for an item.
What happens after that is called for, so a consumer that was not called since
has seen everything: it waits only at an empty queue that is open.
-/

namespace FairLease
namespace Consumer

variable {α : Type} [DecidableEq α] [Hashable α]

/-- A consumer is said to be able to go on if it can be changed by a step, in
which it notices its cancellation or not. -/
theorem canStep_iff (isCancelled : Bool) (c : Consumer α) (q : WorkQueue α) :
    c.canStep isCancelled q = true <->
      exists notices, (c.step (notices && isCancelled) q).1 ≠ c := by
  cases c with
  | registering => exact iff_of_true rfl ⟨true, by simp [step]⟩
  | taking heard =>
      refine iff_of_true rfl ⟨true, ?_⟩
      rcases q.tryGet_cases with ⟨_, hget⟩ | ⟨item, rest, _, hget⟩
      · simp [step, hget]
      · simp [step, hget]
  | checking heard =>
      refine iff_of_true rfl ⟨true, ?_⟩
      cases hshut : q.isShutDown with
      | true => simp [step, hshut]
      | false => simp [step, hshut]
  | waiting heard =>
      by_cases hheard : heard < q.wakeups
      · refine iff_of_true (by simp [canStep, hheard]) ⟨false, ?_⟩
        simp [step, hheard]
      · cases isCancelled with
        | true => exact iff_of_true rfl ⟨true, by simp [step]⟩
        | false => simp [canStep, step, hheard]
  | returned item => simp [canStep, step]

theorem step_of_canStep_eq_false {isCancelled : Bool} {c : Consumer α}
    {q : WorkQueue α} (h : c.canStep isCancelled q = false) (notices : Bool) :
    c.step (notices && isCancelled) q = (c, q) := by
  cases c with
  | registering | taking | checking => cases h
  | returned item => rfl
  | waiting heard =>
      rw [canStep, Bool.or_eq_false_iff, decide_eq_false_iff_not] at h
      rw [h.left, Bool.and_false]
      simp [step, h.right]

end Consumer

namespace Depot

variable {α : Type} [DecidableEq α] [Hashable α]

/-!
# Consumers that know what they are called for
-/

/-- Unless it has been called since it registered, or will be, the consumer has
seen how things are. -/
def Informs (s : Depot α) : Consumer α -> Prop
  | .taking heard => heard ≤ s.queue.wakeups
  | .checking heard =>
      heard ≤ s.queue.wakeups ∧
        (heard = s.queue.wakeups -> s.owed = 0 -> s.queue.items = [])
  | .waiting heard =>
      heard ≤ s.queue.wakeups ∧ (heard = s.queue.wakeups -> s.owed = 0 ->
        s.queue.items = [] ∧ s.queue.isShutDown = false)
  | .registering | .returned _ => True

/-- What a waiting consumer should know of has been called for since `s`, or
will be. -/
structure Announces (s t : Depot α) : Prop where
  wakeups_le : s.queue.wakeups ≤ t.queue.wakeups
  unchanged : t.queue.wakeups = s.queue.wakeups -> t.owed = 0 ->
    s.owed = 0 ∧ (s.queue.items = [] -> t.queue.items = []) ∧
      t.queue.isShutDown = s.queue.isShutDown

theorem announces_refl (s : Depot α) : s.Announces s :=
  ⟨Nat.le_refl _, fun _ howed => ⟨howed, id, rfl⟩⟩

theorem announces_of_queue {s t : Depot α} (hqueue : t.queue = s.queue)
    (howed : t.owed = s.owed) :
    s.Announces t := by
  constructor
  · exact Nat.le_of_eq (by rw [hqueue])
  · intro _ hnone
    rw [hqueue, ← howed]
    exact ⟨hnone, id, rfl⟩

theorem announces_of_tryGet {s t : Depot α}
    (hqueue : t.queue = s.queue.tryGet.2) (howed : t.owed = s.owed) :
    s.Announces t := by
  rcases s.queue.tryGet_cases with ⟨_, hget⟩ | ⟨item, rest, hitems, hget⟩
  · rw [hget] at hqueue
    exact announces_of_queue hqueue howed
  · rw [hget] at hqueue
    constructor
    · exact Nat.le_of_eq (by rw [hqueue])
    · intro _ hnone
      rw [howed] at hnone
      refine ⟨hnone, ?_, by rw [hqueue]⟩
      intro hempty
      rw [hitems] at hempty
      cases hempty

theorem announces_of_call {s t : Depot α}
    (h : t.queue.wakeups = s.queue.wakeups + 1) :
    s.Announces t := by
  constructor
  · rw [h]
    exact Nat.le_succ _
  · intro hsame
    rw [h] at hsame
    exact absurd hsame (Nat.succ_ne_self _)

theorem announces_of_owed {s t : Depot α}
    (hwakeups : t.queue.wakeups = s.queue.wakeups)
    (howed : t.owed = s.owed + 1) : s.Announces t := by
  constructor
  · exact Nat.le_of_eq hwakeups.symm
  · intro _ hnone
    rw [howed] at hnone
    cases hnone

theorem owed_proceed (s : Depot α) (j : Nat) (notices : Bool) :
    (s.step (.proceed j notices)).owed = s.owed := by
  cases hcall : s.calls[j]? with
  | none => rw [step_proceed_of_none hcall]
  | some p =>
      rw [step_proceed hcall]
      rfl

theorem announces_step (s : Depot α) (step : Step α) :
    s.Announces (s.step step) := by
  cases step with
  | add item =>
      rcases s.queue.add_cases item with ⟨_, hadd⟩ | ⟨_, _, hadd⟩
      · exact announces_of_queue (by simp [Depot.step, hadd]) rfl
      · exact announces_of_call (by simp [Depot.step, hadd])
  | push item =>
      rcases s.queue.add_cases item with ⟨_, hadd⟩ | ⟨_, _, hadd⟩
      · exact announces_of_queue (by simp [Depot.step, WorkQueue.push, hadd])
          (by simp [Depot.step, WorkQueue.push, hadd])
      · exact announces_of_owed rfl (by simp [Depot.step, WorkQueue.push, hadd])
  | tryGet => exact announces_of_tryGet rfl rfl
  | get | cancel => exact announces_of_queue rfl rfl
  | shutDown => exact announces_of_call rfl
  | close => exact announces_of_owed rfl rfl
  | notify =>
      rcases s.notify_cases with hsame | ⟨owed, _, hcall⟩
      · rw [hsame]
        exact announces_refl s
      · rw [hcall]
        exact announces_of_call rfl
  | proceed j notices =>
      rcases s.proceed_cases j notices with ⟨_, hqueue⟩ | ⟨_, hqueue⟩
      · exact announces_of_tryGet hqueue (s.owed_proceed j notices)
      · exact announces_of_queue hqueue (s.owed_proceed j notices)

theorem Announces.informs {s t : Depot α} (h : s.Announces t) {c : Consumer α}
    (hc : s.Informs c) :
    t.Informs c := by
  have hcalled {heard : Nat} (hle : heard ≤ s.queue.wakeups)
      (hsame : heard = t.queue.wakeups) : t.queue.wakeups = s.queue.wakeups :=
    Nat.le_antisymm (hsame ▸ hle) h.wakeups_le
  cases c with
  | registering | returned => trivial
  | taking heard => exact Nat.le_trans hc h.wakeups_le
  | checking heard =>
      rcases hc with ⟨hle, hseen⟩
      refine ⟨Nat.le_trans hle h.wakeups_le, ?_⟩
      intro hsame hnone
      rcases h.unchanged (hcalled hle hsame) hnone with ⟨howed, hitems, _⟩
      exact hitems (hseen (hsame.trans (hcalled hle hsame)) howed)
  | waiting heard =>
      rcases hc with ⟨hle, hseen⟩
      refine ⟨Nat.le_trans hle h.wakeups_le, ?_⟩
      intro hsame hnone
      rcases h.unchanged (hcalled hle hsame) hnone with ⟨howed, hitems, hshut⟩
      rcases hseen (hsame.trans (hcalled hle hsame)) howed with ⟨hempty, hopen⟩
      exact ⟨hitems hempty, hshut.trans hopen⟩

/-- A consumer sees how things are before it waits. -/
theorem informs_step {s t : Depot α} {c : Consumer α} (hc : s.Informs c)
    (isCancelled : Bool) (hqueue : t.queue = (c.step isCancelled s.queue).2)
    (howed : t.owed = s.owed) :
    t.Informs (c.step isCancelled s.queue).1 := by
  cases c with
  | registering =>
      show s.queue.wakeups ≤ t.queue.wakeups
      rw [hqueue]
      exact Nat.le_refl _
  | taking heard =>
      rcases s.queue.tryGet_cases with ⟨hempty, hget⟩ | ⟨item, rest, _, hget⟩
      · simp only [Consumer.step, hget] at hqueue ⊢
        have hle : heard ≤ s.queue.wakeups := hc
        rw [← hqueue] at hempty hle
        exact ⟨hle, fun _ _ => hempty⟩
      · simp only [Consumer.step, hget]
        trivial
  | checking heard =>
      have hsame : t.queue = s.queue := hqueue
      cases hshut : s.queue.isShutDown with
      | true =>
          simp only [Consumer.step, hshut]
          trivial
      | false =>
          rcases hc with ⟨hle, hseen⟩
          simp only [Consumer.step, hshut]
          rw [← hsame] at hle hseen hshut
          rw [← howed] at hseen
          exact ⟨hle, fun hheard hnone => ⟨hseen hheard hnone, hshut⟩⟩
  | waiting heard =>
      cases isCancelled with
      | true => trivial
      | false =>
          by_cases hheard : heard < s.queue.wakeups
          · simp only [Consumer.step, hheard]
            trivial
          · simp only [Consumer.step, hheard] at hqueue ⊢
            exact (announces_of_queue hqueue howed).informs hc
  | returned item => trivial

/-!
# Calls
-/

theorem call_step {s : Depot α} {j token : Nat} {c : Consumer α}
    (h : s.calls[j]? = some (token, c)) (step : Step α) :
    exists d, (s.step step).calls[j]? = some (token, d) ∧
      (d = c ∨ exists notices, step = .proceed j notices ∧
        d = (c.step (notices && s.isFired token) s.queue).1) := by
  have hlt : j < s.calls.size := (Array.getElem?_eq_some_iff.mp h).1
  cases step with
  | add | push | tryGet | cancel | shutDown | close => exact ⟨c, h, Or.inl rfl⟩
  | notify =>
      refine ⟨c, ?_, Or.inl rfl⟩
      rcases s.notify_cases with hsame | ⟨owed, _, hcall⟩
      · rw [hsame]
        exact h
      · rw [hcall]
        exact h
  | get begun =>
      refine ⟨c, ?_, Or.inl rfl⟩
      simp only [Depot.step, Array.getElem?_push]
      rw [if_neg (Nat.ne_of_lt hlt)]
      exact h
  | proceed i notices =>
      by_cases hij : i = j
      · subst hij
        refine ⟨_, ?_, Or.inr ⟨notices, rfl, rfl⟩⟩
        simp [step_proceed h, call, hlt]
      · refine ⟨c, ?_, Or.inl rfl⟩
        cases hcall : s.calls[i]? with
        | none =>
            rw [step_proceed_of_none hcall]
            exact h
        | some p =>
            rcases p with ⟨owner, d⟩
            simp only [step_proceed hcall, call, Array.getElem?_setIfInBounds]
            rw [if_neg hij]
            exact h

theorem call_step_of_none {s : Depot α} {j token : Nat} {c : Consumer α}
    {step : Step α} (hnone : s.calls[j]? = none)
    (h : (s.step step).calls[j]? = some (token, c)) :
    c = .registering := by
  cases step with
  | add | push | tryGet | cancel | shutDown | close => cases hnone.symm.trans h
  | notify =>
      rcases s.notify_cases with hsame | ⟨owed, _, hcall⟩
      · rw [hsame] at h
        cases hnone.symm.trans h
      · rw [hcall] at h
        cases hnone.symm.trans h
  | get begun =>
      simp only [Depot.step, Array.getElem?_push] at h
      split at h
      · cases h
        rfl
      · cases hnone.symm.trans h
  | proceed i notices =>
      cases hcall : s.calls[i]? with
      | none =>
          rw [step_proceed_of_none hcall] at h
          cases hnone.symm.trans h
      | some p =>
          rcases p with ⟨owner, d⟩
          have hsize := Array.getElem?_eq_none_iff.mp hnone
          simp [step_proceed hcall, call, hsize] at h

theorem call_step_of_returned {s : Depot α} {j token : Nat} {item : Option α}
    (h : s.calls[j]? = some (token, .returned item)) (step : Step α) :
    (s.step step).calls[j]? = some (token, .returned item) := by
  rcases call_step h step with ⟨d, hd, rfl | ⟨notices, _, rfl⟩⟩
  · exact hd
  · exact hd

theorem returned_of_changed {s : Depot α} {j : Nat} {notices : Bool}
    (h : (s.step (.proceed j notices)).queue ≠ s.queue) :
    exists token item,
      (s.step (.proceed j notices)).calls[j]? =
        some (token, .returned (some item)) := by
  cases hcall : s.calls[j]? with
  | none => exact absurd (by rw [step_proceed_of_none hcall]) h
  | some p =>
      rcases p with ⟨token, c⟩
      have hlt : j < s.calls.size := (Array.getElem?_eq_some_iff.mp hcall).1
      rw [step_proceed hcall] at h ⊢
      rcases c.step_cases (notices && s.isFired token) s.queue with
        hsame | ⟨item, rest, _, hstep⟩
      · exact absurd hsame h
      · refine ⟨token, item, ?_⟩
        simp [call, hstep, hlt]

/-!
# Still depots
-/

def IsStill (s : Depot α) : Prop :=
  forall j notices, s.step (.proceed j notices) = s

theorem isStill_iff {s : Depot α} :
    s.IsStill <-> forall (j token : Nat)
      (c : Consumer α), s.calls[j]? = some (token, c) ->
      c.canStep (s.isFired token) s.queue = false := by
  constructor
  · intro h j token c hcall
    rw [← Bool.not_eq_true, Consumer.canStep_iff]
    rintro ⟨notices, hne⟩
    have hlt : j < s.calls.size := (Array.getElem?_eq_some_iff.mp hcall).1
    have hcalls := congrArg (fun t => t.calls[j]?) (h j notices)
    rw [step_proceed hcall] at hcalls
    simp only [call, Array.getElem?_setIfInBounds, if_true, hlt,
      hcall] at hcalls
    exact hne (Prod.mk.inj (Option.some.inj hcalls)).right
  · intro h j notices
    cases hcall : s.calls[j]? with
    | none => exact step_proceed_of_none hcall notices
    | some p =>
        rcases p with ⟨token, c⟩
        have hcalls : s.calls.setIfInBounds j (token, c) = s.calls := by
          apply Array.ext_getElem?
          intro i
          rw [Array.getElem?_setIfInBounds]
          by_cases hij : j = i
          · subst hij
            rw [if_pos rfl, if_pos (Array.getElem?_eq_some_iff.mp hcall).1,
              hcall]
          · rw [if_neg hij]
        rw [step_proceed hcall, call,
          Consumer.step_of_canStep_eq_false (h j token c hcall) notices, hcalls]

/-- A call that is not answered in a still depot waits for what has not
happened. -/
theorem IsStill.waits {s : Depot α} (h : s.IsStill) {j token : Nat}
    {c : Consumer α} (hcall : s.calls[j]? = some (token, c))
    (hunanswered : c.answer? = none) :
    exists heard, c = .waiting heard ∧ s.isFired token = false ∧
      s.queue.wakeups ≤ heard := by
  have hstuck := isStill_iff.mp h j token c hcall
  cases c with
  | registering | taking | checking => cases hstuck
  | returned item => cases hunanswered
  | waiting heard =>
      rw [Consumer.canStep, Bool.or_eq_false_iff,
        decide_eq_false_iff_not] at hstuck
      exact ⟨heard, rfl, hstuck.left, Nat.le_of_not_lt hstuck.right⟩

/-!
# Runs
-/

section

variable {steps : List (Step α)}

theorem informs_after (n : Nat) : forall (j token : Nat) (c : Consumer α),
    (after steps n).calls[j]? = some (token, c) ->
    (after steps n).Informs c := by
  induction n with
  | zero =>
      intro j token c hcall
      simp [after, empty] at hcall
  | succ n ih =>
      intro j token c hcall
      cases hn : steps[n]? with
      | none =>
          rw [after_succ_of_none hn] at hcall ⊢
          exact ih j token c hcall
      | some step =>
          rw [after_succ hn] at hcall ⊢
          cases hbefore : (after steps n).calls[j]? with
          | none =>
              rw [call_step_of_none hbefore hcall]
              trivial
          | some p =>
              rcases p with ⟨owner, d⟩
              rcases call_step hbefore step with ⟨d', hd', hnext⟩
              cases hd'.symm.trans hcall
              rcases hnext with rfl | ⟨notices, rfl, rfl⟩
              · exact (announces_step _ step).informs (ih j token _ hbefore)
              · exact informs_step (ih j token d hbefore)
                  _ (by rw [step_proceed hbefore]; rfl)
                  (owed_proceed _ j notices)

/-- The step is a whole call, and not a part of one after which nobody has been
called yet. -/
def Step.isWhole : Step α -> Bool
  | .push _ | .close => false
  | _ => true

theorem owed_step_of_isWhole {s : Depot α} (h : s.owed = 0) {step : Step α}
    (hwhole : step.isWhole = true) : (s.step step).owed = 0 := by
  cases step with
  | push | close => cases hwhole
  | add | tryGet | get | cancel | shutDown => exact h
  | notify =>
      rcases s.notify_cases with hsame | ⟨owed, howed, _⟩
      · rw [hsame, h]
      · rw [h] at howed
        cases howed
  | proceed j notices => rw [owed_proceed, h]

theorem owed_after_of_isWhole {n : Nat}
    (h : forall k step, k < n -> steps[k]? = some step -> step.isWhole = true) :
    (after steps n).owed = 0 := by
  induction n with
  | zero => rfl
  | succ n ih =>
      have hbefore := ih fun k step hk => h k step (Nat.lt_succ_of_lt hk)
      cases hn : steps[n]? with
      | none => rw [after_succ_of_none hn, hbefore]
      | some step =>
          rw [after_succ hn]
          exact owed_step_of_isWhole hbefore (h n step (Nat.lt_succ_self n) hn)

theorem call_after_of_returned {m n j token : Nat} {item : Option α}
    (hmn : m ≤ n)
    (h : (after steps m).calls[j]? = some (token, .returned item)) :
    (after steps n).calls[j]? = some (token, .returned item) :=
  stateAt_related
    (R := fun s t : Depot α => s.calls[j]? = some (token, .returned item) ->
      t.calls[j]? = some (token, .returned item))
    (fun _ hs => hs) (fun hst htu hs => htu (hst hs))
    (fun _ step hs => call_step_of_returned hs step)
    empty steps hmn h

end

/-- Any producers and consumers use a new queue, in any order of their steps:
(1) when whole additions and shutdowns are all there is, nobody has still to be
called; (2) when nobody has and no call for an item can go on, a call without
answer waits at an empty queue that is not shut down, and has not been
cancelled; (3) a call that returns without an item has never changed the
queue. -/
theorem no_wakeup_is_lost (steps : List (Step α)) (n : Nat) :
    ((forall k step, k < n -> steps[k]? = some step -> step.isWhole = true) ->
      (after steps n).owed = 0) ∧
    ((after steps n).owed = 0 -> (after steps n).IsStill ->
      forall (j token : Nat) (c : Consumer α),
        (after steps n).calls[j]? = some (token, c) -> c.answer? = none ->
      (after steps n).queue.items = [] ∧
      (after steps n).queue.isShutDown = false ∧
        (after steps n).isFired token = false) ∧
    (forall (j token : Nat), (after steps n).calls[j]? =
      some (token, .returned none) ->
      forall k notices, k < n -> steps[k]? = some (.proceed j notices) ->
      (after steps (k + 1)).queue = (after steps k).queue) := by
  refine ⟨owed_after_of_isWhole, ?_, ?_⟩
  · intro howed hstill j token c hcall hunanswered
    rcases hstill.waits hcall hunanswered with ⟨heard, rfl, hfired, hle⟩
    rcases informs_after n j token _ hcall with ⟨hge, hseen⟩
    rcases hseen (Nat.le_antisymm hge hle) howed with ⟨hempty, hopen⟩
    exact ⟨hempty, hopen, hfired⟩
  · intro j token hcall k notices hk hstep
    apply Classical.byContradiction
    intro hchanged
    rw [after_succ hstep] at hchanged
    rcases returned_of_changed hchanged with ⟨owner, item, hreturned⟩
    rw [← after_succ hstep] at hreturned
    rw [call_after_of_returned hk hreturned] at hcall
    cases hcall

/-- Three consumers wait and one item is added. The first of them gets it, the
second finds nothing and waits again, and the third is called and cancelled at
once and gives up. -/
def racingSteps : List (Step Nat) :=
  [.get 0, .get 1, .get 2, .proceed 0 false, .proceed 0 false, .proceed 0 false,
    .proceed 1 false, .proceed 1 false, .proceed 1 false, .proceed 2 false,
    .proceed 2 false, .proceed 2 false, .add 7, .proceed 0 false,
    .proceed 1 false, .proceed 0 false, .proceed 0 false, .proceed 1 false,
    .proceed 1 false, .proceed 1 false, .cancel 2, .proceed 2 true]

theorem no_wakeup_is_lost_racingSteps :
    (after racingSteps 22).calls =
      #[(0, .returned (some 7)), (1, .waiting 1), (2, .returned none)] ∧
    (after racingSteps 22).owed = 0 ∧ (after racingSteps 22).IsStill ∧
    ((after racingSteps 22).queue.items = [] ∧
      (after racingSteps 22).queue.isShutDown = false ∧
      (after racingSteps 22).isFired 1 = false) ∧
    (after racingSteps 22).queue = (after racingSteps 21).queue := by
  have hcalls : (after racingSteps 22).calls =
      #[(0, .returned (some 7)), (1, .waiting 1), (2, .returned none)] := by
    simp [racingSteps, after, stateAt, step, empty, call, isFired,
      Consumer.step, WorkQueue.empty, WorkQueue.add, WorkQueue.tryGet]
  have hstill : (after racingSteps 22).IsStill := by
    rw [isStill_iff, hcalls]
    intro j token c hcall
    rcases j with _ | _ | _ | j
    · cases hcall
      rfl
    · cases hcall
      simp [racingSteps, after, stateAt, step, empty, call, isFired,
        Consumer.step, Consumer.canStep, WorkQueue.empty, WorkQueue.add,
        WorkQueue.tryGet]
    · cases hcall
      rfl
    · simp at hcall
  rcases no_wakeup_is_lost racingSteps 22 with ⟨hwhole, hwaits, hleft⟩
  have howed := hwhole fun k step _ hstep =>
    (show forall step, step ∈ racingSteps -> step.isWhole = true by decide) step
      (List.mem_of_getElem? hstep)
  refine ⟨hcalls, howed, hstill, ?_, ?_⟩
  · exact hwaits howed hstill 1 1 (.waiting 1) (by rw [hcalls]; rfl) rfl
  · exact hleft 2 2 (by rw [hcalls]; rfl) 21 true (by decide) rfl

end Depot
end FairLease
