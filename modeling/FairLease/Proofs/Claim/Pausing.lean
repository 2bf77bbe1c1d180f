import FairLease.Proofs.Claim.Lifetime
import FairLease.Proofs.Claim.Listening
import FairLease.Proofs.Lease.Backoff

/-!
# Pauses that last

A watch pauses after every failure. The pause has a length if and only if the
initial delay of the settings does in the milliseconds in which it is counted.
-/

namespace FairLease

def Expiration.Poll.now {W : Type} : Expiration.Poll W -> Nat
  | .subscribed now _ _ => now
  | .notified now _ _ _ => now
  | .alarm now => now

namespace Watch

open Simulation

variable {W : Type} {node : Node} {steps : List (Step W)}

/-!
# Delays of a run
-/

theorem hasGrown_iterate (node : Node) (k : Nat) :
    (Expiration.grown^[k] (initialBackoff node)).HasGrown
      node.manager.settings.retryBackoff
      node.manager.settings.retryBackoffMax k := by
  induction k with
  | zero => exact Backoff.hasGrown_new _ _
  | succ k ih =>
      rw [Function.iterate_succ_apply']
      exact ih.next 0

theorem hasGrown_after (n : Nat) :
    (after node steps n).loop.backoff.HasGrown
      node.manager.settings.retryBackoff
      node.manager.settings.retryBackoffMax (failures node steps n) := by
  rw [backoff_after]
  exact hasGrown_iterate node _

/-!
# Pauses
-/

/-- A failure that the loop is told of at the moment `n` makes it pause from
`now` until `wakeAt`. -/
def Pauses (node : Node) (steps : List (Step W)) (n now wakeAt : Nat) : Prop :=
  exists p e w, steps[n]? = some (.poll p) ∧ p.now = now ∧
    failureAt node steps n = some e ∧
    (after node steps (n + 1)).loop.phase = .pausing w wakeAt

theorem phase_of_failure {x y : Expiration W} {p : Expiration.Poll W}
    {news : Option Event} {e : StoreError}
    (h : Expiration.Turn x p news (some e) y) :
    exists w seed, y.phase = .pausing w (wakeTime x.backoff p.now seed) := by
  cases h with
  | @refused now seed e hphase => exact ⟨none, seed, rfl⟩
  | @fails now seed e v w hphase => exact ⟨_, seed, rfl⟩

theorem pausing_of_failureAt {n : Nat} {e : StoreError} {p : Expiration.Poll W}
    (hstep : steps[n]? = some (.poll p)) (h : failureAt node steps n = some e) :
    exists w seed, (after node steps (n + 1)).loop.phase =
      .pausing w (wakeTime (after node steps n).loop.backoff p.now seed) := by
  have hfailure : (after node steps n).failure? p = some e := by
    rw [← h, failureAt, hstep]
  have hgoes : (after node steps n).isCancelled = false := by
    cases hcancelled : (after node steps n).isCancelled with
    | false => rfl
    | true =>
        rw [failure?, hcancelled, if_pos rfl] at hfailure
        cases hfailure
  rw [failure?, hgoes, if_neg Bool.false_ne_true] at hfailure
  have hturn := Expiration.turn_poll (after node steps n).loop p
  rw [hfailure, ← loop_after_poll hstep hgoes] at hturn
  exact phase_of_failure hturn

theorem pauses_of_failureAt {n : Nat} {e : StoreError}
    (h : failureAt node steps n = some e) :
    exists now wakeAt, Pauses node steps n now wakeAt := by
  cases hstep : steps[n]? with
  | none => simp [failureAt, hstep] at h
  | some step =>
      cases step with
      | cancel | share queue => simp [failureAt, hstep] at h
      | poll p =>
          rcases pausing_of_failureAt hstep h with ⟨w, seed, hphase⟩
          exact ⟨p.now, _, p, e, w, hstep, rfl, h, hphase⟩

theorem Pauses.wakeAt_eq {n now wakeAt : Nat}
    (h : Pauses node steps n now wakeAt) :
    exists seed, wakeAt =
      wakeTime (after node steps n).loop.backoff now seed := by
  rcases h with ⟨p, e, w, hstep, rfl, hfailure, hphase⟩
  rcases pausing_of_failureAt hstep hfailure with ⟨w', seed, hphase'⟩
  rw [hphase] at hphase'
  cases hphase'
  exact ⟨seed, rfl⟩

/-- Whatever the store answers to the loop of a node and whatever its random
seeds are, (1) every failure that it is told of makes it pause. (2) No pause
ends before it begins, and each of them takes time if and only if the initial
delay of the settings is not zero in the milliseconds of 64 bits in which delays
are counted. (3) Of valid settings these are the ones whose initial delay is
more than what is not counted of it. -/
theorem pauses_take_time_iff (node : Node) (steps : List (Step W)) :
    (forall n e, failureAt node steps n = some e ->
      exists now wakeAt, Pauses node steps n now wakeAt) ∧
    (forall n now wakeAt, Pauses node steps n now wakeAt ->
      now ≤ wakeAt ∧ (now < wakeAt <->
        0 < node.manager.settings.retryBackoff.millis)) ∧
    (node.manager.settings.validate = .ok () ->
      0 < node.manager.settings.retryBackoff.nanos ∧
      (0 < node.manager.settings.retryBackoff.millis <->
        node.manager.settings.retryBackoff.uncounted <
          node.manager.settings.retryBackoff.nanos)) := by
  refine ⟨fun n e hfailure => pauses_of_failureAt hfailure, ?_, ?_⟩
  · intro n now wakeAt hpauses
    rcases hpauses.wakeAt_eq with ⟨seed, rfl⟩
    have hgrown : (after node steps n).loop.backoff.HasGrown
        _ _ (failures node steps n) :=
      hasGrown_after n
    have hpos := hgrown.delay_pos_iff seed
    rw [← hpos, wakeTime]
    omega
  · intro hvalid
    have hcounted : node.manager.settings.retryBackoff.millis * 1000000 +
        node.manager.settings.retryBackoff.uncounted =
          node.manager.settings.retryBackoff.nanos :=
      Duration.millis_add_uncounted _
    refine ⟨((ClaimSettings.validate_eq_ok_iff _).mp hvalid).retryBackoff, ?_⟩
    omega

theorem pauses_take_time_iff_troubled :
    Pauses idleNode troubledSteps 2 0 500000000 ∧
      Pauses idleNode troubledSteps 5 500000000 1500000000 ∧
      0 < idleNode.manager.settings.retryBackoff.millis := by
  rcases pauses_take_time_iff idleNode troubledSteps with ⟨_, htime, _⟩
  have hfirst : Pauses idleNode troubledSteps 2 0 500000000 :=
    ⟨_, _, _, rfl, rfl, rfl, rfl⟩
  have hsecond : Pauses idleNode troubledSteps 5 500000000 1500000000 :=
    ⟨_, _, _, rfl, rfl, rfl, rfl⟩
  exact ⟨hfirst, hsecond, (htime 5 _ _ hsecond).right.mp (by decide)⟩

/-- A node that is to begin with pauses of half a millisecond. -/
def restlessNode : Node :=
  { idleNode with
    manager := ⟨{ ClaimSettings.default with retryBackoff := ⟨500000⟩ }, false, .empty⟩ }

/-- The store cannot be reached, and time does not go on. -/
def unreachableSteps : List (Step Nat) :=
  [.poll (.subscribed 0 7 (.error .watchClosed)), .poll (.alarm 0),
    .poll (.subscribed 0 8 (.error .watchClosed)), .poll (.alarm 0),
    .poll (.subscribed 0 9 (.error .watchClosed)), .poll (.alarm 0)]

/-- The settings are valid, and the loop subscribes again and again at the same
instant. -/
theorem pauses_without_length :
    restlessNode.manager.settings.validate = .ok () ∧
      (forall n, n ∈ [0, 2, 4] ->
        (after restlessNode unreachableSteps n).call? =
          some (.watch "/ipclaim/") ∧
        Pauses restlessNode unreachableSteps n 0 0) := by
  refine ⟨rfl, ?_⟩
  intro n hn
  simp only [List.mem_cons, List.not_mem_nil, or_false] at hn
  rcases hn with rfl | rfl | rfl
  · exact ⟨rfl, _, _, _, rfl, rfl, rfl, rfl⟩
  · exact ⟨rfl, _, _, _, rfl, rfl, rfl, rfl⟩
  · exact ⟨rfl, _, _, _, rfl, rfl, rfl, rfl⟩

end Watch
end FairLease
