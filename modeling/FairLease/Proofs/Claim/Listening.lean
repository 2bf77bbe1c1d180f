import FairLease.Proofs.Claim.Watch
import Mathlib.Logic.Function.Iterate

/-!
# Listening until the end

A watch hears every event that its watchers deliver and queues what they remove.
A failure costs it one pause, and only its cancellation ends it.
-/

namespace FairLease
namespace Watch

open Simulation

variable {W : Type}

/-!
# What the loop is told
-/

section

variable (node : Node) (steps : List (Step W))

def newsAt (n : Nat) : Option Event :=
  match steps[n]? with
  | some (.poll p) => (after node steps n).news? p
  | _ => none

def failureAt (n : Nat) : Option StoreError :=
  match steps[n]? with
  | some (.poll p) => (after node steps n).failure? p
  | _ => none

def delivered (m n : Nat) : List Event :=
  ((List.range n).drop m).filterMap (newsAt node steps)

def failures : Nat -> Nat
  | 0 => 0
  | n + 1 =>
      match newsAt node steps n, failureAt node steps n with
      | some _, _ => 0
      | none, some _ => failures n + 1
      | none, none => failures n

theorem after_cases (n : Nat) :
    ((after node steps (n + 1)).loop = (after node steps n).loop ∧
        newsAt node steps n = none ∧ failureAt node steps n = none) ∨
      ((after node steps n).isCancelled = true ∧
        (after node steps (n + 1)).loop = (after node steps n).loop.cancel ∧
        newsAt node steps n = none ∧ failureAt node steps n = none) ∨
      ((after node steps n).isCancelled = false ∧
        exists p, Expiration.Turn (after node steps n).loop p
          (newsAt node steps n)
          (failureAt node steps n) (after node steps (n + 1)).loop) := by
  cases hstep : steps[n]? with
  | none =>
      have hsame : after node steps (n + 1) = _ := after_succ_of_none hstep
      exact Or.inl ⟨by rw [hsame], by simp [newsAt, hstep],
        by simp [failureAt, hstep]⟩
  | some step =>
      have hnext : after node steps (n + 1) = _ := after_succ hstep
      cases step with
      | cancel | share queue =>
          exact Or.inl ⟨by rw [hnext]; rfl, by simp [newsAt, hstep],
            by simp [failureAt, hstep]⟩
      | poll p =>
          cases hcancelled : (after node steps n).isCancelled with
          | true =>
              refine Or.inr (Or.inl ⟨rfl, ?_, ?_, ?_⟩)
              · simp [hnext, Watch.step, hcancelled]
              · simp [newsAt, hstep, news?, hcancelled]
              · simp [failureAt, hstep, failure?, hcancelled]
          | false =>
              refine Or.inr (Or.inr ⟨rfl, p, ?_⟩)
              simp only [hnext, Watch.step, newsAt, failureAt, hstep, news?,
                failure?, hcancelled, Bool.false_eq_true, if_false]
              exact Expiration.turn_poll _ p

theorem delivered_self (n : Nat) : delivered node steps n n = [] := by
  rw [delivered, List.drop_eq_nil_of_le (Nat.le_of_eq List.length_range)]
  rfl

theorem delivered_succ {m n : Nat} (hmn : m ≤ n) :
    delivered node steps m (n + 1) =
      delivered node steps m n ++ (newsAt node steps n).toList := by
  have hlength : m ≤ (List.range n).length := by
    rw [List.length_range]
    exact hmn
  rw [delivered, List.range_succ, List.drop_append_of_le_length hlength,
    List.filterMap_append]
  cases hnews : newsAt node steps n <;> simp [delivered, hnews]

end

section

variable {node : Node} {steps : List (Step W)}

theorem newsAt_of_isCancelled {n : Nat}
    (h : (after node steps n).isCancelled = true) :
    newsAt node steps n = none := by
  unfold newsAt
  split
  · exact if_pos h
  · rfl

theorem delivered_of_isCancelled {m n : Nat} (hmn : m ≤ n)
    (h : (after node steps m).isCancelled = true) :
    delivered node steps m n = [] := by
  induction hmn with
  | refl => exact delivered_self node steps m
  | @step n hmn ih =>
      rw [delivered_succ node steps hmn, ih,
        newsAt_of_isCancelled (isCancelled_after hmn h)]
      rfl

/-!
# The queue
-/

theorem removed?_eq_some_iff (lead : String) (e : Event) (cidr : String) :
    Expiration.removed? lead e = some cidr <->
      e.action.isRemoval = true ∧ ClaimKey.toCidr lead e.key = .ok cidr := by
  unfold Expiration.removed?
  cases e.action.isRemoval with
  | false => simp
  | true => cases ClaimKey.toCidr lead e.key <;> simp [Except.toOption]

def IsAlone (steps : List (Step W)) (m n : Nat) : Prop :=
  forall i queue, m ≤ i -> i < n -> steps[i]? ≠ some (.share queue)

theorem queue_after_succ {n : Nat}
    (halone : forall queue, steps[n]? ≠ some (.share queue)) :
    (after node steps (n + 1)).node.queue =
      (after node steps n).node.queue.addAll
        ((newsAt node steps n).toList.filterMap
          (Expiration.removed? node.manager.settings.root)) := by
  cases hstep : steps[n]? with
  | none =>
      have hsame : after node steps (n + 1) = after node steps n :=
        after_succ_of_none hstep
      simp [hsame, newsAt, hstep]
  | some step =>
      have hnext : after node steps (n + 1) = (after node steps n).step step :=
        after_succ hstep
      cases step with
      | cancel => simp [hnext, Watch.step, World.cancel, newsAt, hstep]
      | share queue => exact absurd hstep (halone queue)
      | poll p =>
          have hpolled : (after node steps (n + 1)).node.queue =
              (after node steps n).queueAfter p := by
            rw [hnext]
            rfl
          have hnewsAt : newsAt node steps n =
              (after node steps n).news? p := by
            rw [newsAt, hstep]
          rw [hpolled, hnewsAt]
          cases hnews : (after node steps n).news? p with
          | none =>
              rw [queueAfter_of_no_news hnews]
              rfl
          | some e =>
              rw [queueAfter_of_news hnews, root_after]
              cases hremoved : Expiration.removed?
                node.manager.settings.root e <;>
                simp [hremoved]

theorem queue_after {m n : Nat} (hmn : m ≤ n) (halone : IsAlone steps m n) :
    (after node steps n).node.queue =
      (after node steps m).node.queue.addAll
        ((delivered node steps m n).filterMap
          (Expiration.removed? node.manager.settings.root)) := by
  induction hmn with
  | refl =>
      rw [delivered_self]
      rfl
  | @step n hmn ih =>
      have hbefore : IsAlone steps m n := fun i queue hi hin =>
        halone i queue hi (Nat.lt_succ_of_lt hin)
      rw [queue_after_succ (halone n · hmn (Nat.lt_succ_self n)), ih hbefore,
        delivered_succ node steps hmn, List.filterMap_append,
        WorkQueue.addAll_append]

/-!
# Pauses
-/

/-- The step is a poll at the end of a pause until `wakeAt`, or of a loop that
is to stop. -/
def endsPause (s : Watch W) (wakeAt : Nat) : Step W -> Bool
  | .poll (.alarm now) => s.isCancelled || decide (wakeAt ≤ now)
  | .poll _ => s.isCancelled
  | _ => false

def StillPauses (node : Node) (steps : List (Step W)) (wakeAt m n : Nat) :
    Prop :=
  forall i step, m ≤ i -> i < n -> steps[i]? = some step ->
    (after node steps i).endsPause wakeAt step = false

/-- From the moment `m` on the loop pauses until `wakeAt` and makes no call; the
next that it makes is `call`. -/
structure PausesFrom (node : Node) (steps : List (Step W)) (m wakeAt : Nat)
    (call : StoreCall W) :
    Prop where
  silent : forall n, m ≤ n -> StillPauses node steps wakeAt m n ->
    (after node steps n).call? = none ∧
      (after node steps n).loop.phase ≠ .stopped
  stops : forall n p, m ≤ n -> StillPauses node steps wakeAt m n ->
    steps[n]? = some (.poll p) -> (after node steps n).isCancelled = true ->
    (after node steps (n + 1)).loop.phase = .stopped
  resumes : forall n now, m ≤ n -> StillPauses node steps wakeAt m n ->
    steps[n]? = some (.poll (.alarm now)) -> wakeAt ≤ now ->
    (after node steps n).isCancelled = false ->
      (after node steps (n + 1)).call? = some call

theorem phase_step_of_pausing {s : Watch W} {w : Option W} {wakeAt : Nat}
    (hphase : s.loop.phase = .pausing w wakeAt) {step : Step W}
    (hstep : s.endsPause wakeAt step = false) :
    (s.step step).loop.phase = .pausing w wakeAt := by
  cases step with
  | cancel | share queue => exact hphase
  | poll p =>
      cases hcancelled : s.isCancelled with
      | true => cases p <;> simp [endsPause, hcancelled] at hstep
      | false =>
          simp only [Watch.step, hcancelled, Bool.false_eq_true, if_false]
          cases p with
          | subscribed | notified =>
              simp [Expiration.poll, Expiration.subscribed,
                Expiration.notified, hphase]
          | alarm now =>
              have hearly : ¬ wakeAt ≤ now := by
                simpa [endsPause, hcancelled] using hstep
              simp [Expiration.poll, Expiration.resume, hphase, hearly]

theorem phase_after_of_pausing {m n wakeAt : Nat} {w : Option W} (hmn : m ≤ n)
    (hphase : (after node steps m).loop.phase = .pausing w wakeAt)
    (hstill : StillPauses node steps wakeAt m n) :
    (after node steps n).loop.phase = .pausing w wakeAt := by
  induction hmn with
  | refl => exact hphase
  | @step n hmn ih =>
      have hbefore := ih fun i step hi hin =>
        hstill i step hi (Nat.lt_succ_of_lt hin)
      cases hstep : steps[n]? with
      | none =>
          rw [after_succ_of_none hstep]
          exact hbefore
      | some step =>
          rw [after_succ hstep]
          exact phase_step_of_pausing hbefore
            (hstill n step hmn (Nat.lt_succ_self n) hstep)

def nextCall (lead : String) : Option W -> StoreCall W
  | some w => .next w
  | none => .watch lead

theorem pausesFrom {m wakeAt : Nat} {w : Option W}
    (hphase : (after node steps m).loop.phase = .pausing w wakeAt) :
    PausesFrom node steps m wakeAt (nextCall node.manager.settings.root w) where
  silent := by
    intro n hmn hstill
    have hpausing := phase_after_of_pausing hmn hphase hstill
    constructor
    · exact (call?_eq_none_iff _).mpr (Or.inl ⟨w, wakeAt, hpausing⟩)
    · rw [hpausing]
      intro hstopped
      cases hstopped
  stops := by
    intro n p hmn hstill hstep hcancelled
    rw [after_succ hstep]
    simp [Watch.step, hcancelled, Expiration.cancel]
  resumes := by
    intro n now hmn hstill hstep hnow hgoes
    have hpausing := phase_after_of_pausing hmn hphase hstill
    have hroot : (after node steps (n + 1)).root = node.manager.settings.root :=
      root_after (n + 1)
    have hresumed : (after node steps (n + 1)).loop.phase =
        Expiration.target w := by
      rw [after_succ hstep]
      cases w <;>
        simp [Watch.step, hgoes, Expiration.poll, Expiration.resume, hpausing,
          hnow, Expiration.target]
    cases w with
    | some w => exact (call?_eq_next_iff _ w).mpr hresumed
    | none => exact (call?_eq_watch_iff _ _).mpr ⟨hresumed, hroot⟩

/-!
# Delays
-/

def initialBackoff (node : Node) : Backoff :=
  .new node.manager.settings.retryBackoff node.manager.settings.retryBackoffMax

theorem reset_grown_iterate (b : Backoff) (k : Nat) :
    (Expiration.grown^[k] b).reset = b.reset := by
  induction k with
  | zero => rfl
  | succ k ih =>
      rw [Function.iterate_succ_apply']
      exact ih

def delays (node : Node) (steps : List (Step W)) (n : Nat) : Backoff :=
  Expiration.grown^[failures node steps n] (initialBackoff node)

theorem backoff_after (n : Nat) :
    (after node steps n).loop.backoff = delays node steps n := by
  unfold delays
  induction n with
  | zero => rfl
  | succ n ih =>
      rw [failures]
      rcases after_cases node steps n with
        ⟨hloop, hnews, hfailure⟩ | ⟨_, hloop, hnews, hfailure⟩ | ⟨_, p, hturn⟩
      · rw [hloop, hnews, hfailure]
        exact ih
      · rw [hloop, hnews, hfailure]
        exact ih
      · rw [hturn.backoff_eq, ih]
        cases newsAt node steps n with
        | some e => exact reset_grown_iterate (initialBackoff node) _
        | none =>
            cases failureAt node steps n with
            | some e =>
                show Expiration.grown _ =
                    Expiration.grown^[failures node steps n + 1] _
                rw [Function.iterate_succ_apply']
            | none => rfl

/-!
# The end
-/

theorem isCancelled_of_stopped {n : Nat}
    (h : (after node steps n).loop.phase = .stopped) :
    (after node steps n).isCancelled = true := by
  induction n with
  | zero => cases h
  | succ n ih =>
      apply isCancelled_after (Nat.le_succ n)
      rcases after_cases node steps n with
        ⟨hloop, _⟩ | ⟨hcancelled, _⟩ | ⟨_, p, hturn⟩
      · rw [hloop] at h
        exact ih h
      · exact hcancelled
      · exact ih (hturn.stopped_before h)

/-!
# Answers
-/

def Awaits (s : Watch W) (call : StoreCall W) : Prop :=
  s.isCancelled = false ∧ s.call? = some call

theorem loop_after_poll {n : Nat} {p : Expiration.Poll W}
    (hstep : steps[n]? = some (.poll p))
    (hgoes : (after node steps n).isCancelled = false) :
    (after node steps (n + 1)).loop = (after node steps n).loop.poll p := by
  rw [after_succ hstep]
  simp [Watch.step, hgoes]

def Step.answers : Step W -> StoreCall W -> Bool
  | .poll (.subscribed _ _ _), .watch _ => true
  | .poll (.notified _ _ _ _), .next _ => true
  | _, _ => false

theorem loop_step_of_unanswered {s : Watch W} {call : StoreCall W}
    (h : s.Awaits call) {step : Step W} (hstep : step.answers call = false) :
    (s.step step).loop = s.loop := by
  cases step with
  | cancel | share queue => rfl
  | poll p =>
      rcases h with ⟨hgoes, hcall⟩
      have hpoll : s.loop.poll p = s.loop := by
        cases hphase : s.loop.phase with
        | subscribing =>
            have hwatch := (call?_eq_watch_iff s s.root).mpr ⟨hphase, rfl⟩
            rw [hcall] at hwatch
            cases hwatch
            cases p with
            | subscribed => cases hstep
            | notified => simp [Expiration.poll, Expiration.notified, hphase]
            | alarm => simp [Expiration.poll, Expiration.resume, hphase]
        | listening v =>
            have hnext := (call?_eq_next_iff s v).mpr hphase
            rw [hcall] at hnext
            cases hnext
            cases p with
            | notified => cases hstep
            | subscribed =>
                simp [Expiration.poll, Expiration.subscribed, hphase]
            | alarm => simp [Expiration.poll, Expiration.resume, hphase]
        | pausing | stopped => simp [call?, Job.call?, hphase] at hcall
      simp [Watch.step, hgoes, hpoll]

theorem call?_of_unanswered {n : Nat} {step : Step W} {call : StoreCall W}
    (hstep : steps[n]? = some step) (hawaits : (after node steps n).Awaits call)
    (hanswer : step.answers call = false) :
    (after node steps (n + 1)).call? = some call := by
  have hloop := loop_step_of_unanswered hawaits hanswer
  have hsettings := settings_step (after node steps n) step
  rw [after_succ hstep, ← hawaits.right]
  simp only [call?, Job.call?, hloop, hsettings]

theorem call?_of_subscribed {n now seed : Nat} {w : W} {lead : String}
    (hstep : steps[n]? = some (.poll (.subscribed now seed (.ok w))))
    (hawaits : (after node steps n).Awaits (.watch lead)) :
    (after node steps (n + 1)).call? = some (.next w) := by
  have hphase := ((call?_eq_watch_iff _ _).mp hawaits.right).left
  rw [call?_eq_next_iff, loop_after_poll hstep hawaits.left]
  simp [Expiration.poll, Expiration.subscribed, hphase]

theorem call?_of_heard {n now seed : Nat} {e : Event} {v w : W}
    (hstep : steps[n]? = some (.poll (.notified now seed (.ok e) w)))
    (hawaits : (after node steps n).Awaits (.next v)) :
    (after node steps (n + 1)).call? = some (.next w) := by
  have hphase := (call?_eq_next_iff _ _).mp hawaits.right
  rw [call?_eq_next_iff, loop_after_poll hstep hawaits.left]
  simp [Expiration.poll, Expiration.notified, hphase]

def wakeTime (b : Backoff) (now seed : Nat) : Nat :=
  now + b.delay seed * 1000000

theorem pausesFrom_of_refused {n now seed : Nat} {e : StoreError}
    {lead : String}
    (hstep : steps[n]? = some (.poll (.subscribed now seed (.error e))))
    (hawaits : (after node steps n).Awaits (.watch lead)) :
    PausesFrom node steps (n + 1) (wakeTime (delays node steps n) now seed)
      (.watch node.manager.settings.root) := by
  have hphase := ((call?_eq_watch_iff _ _).mp hawaits.right).left
  refine pausesFrom (w := none) ?_
  rw [loop_after_poll hstep hawaits.left]
  simp [Expiration.poll, Expiration.subscribed, hphase, Expiration.pause,
    Backoff.next, wakeTime, backoff_after]

theorem pausesFrom_of_failed {n now seed : Nat} {e : StoreError} {v w : W}
    (hstep : steps[n]? = some (.poll (.notified now seed (.error e) w)))
    (hawaits : (after node steps n).Awaits (.next v)) :
    PausesFrom node steps (n + 1) (wakeTime (delays node steps n) now seed)
      (if Expiration.isPassing e then .next w
        else .watch node.manager.settings.root) := by
  have hphase := (call?_eq_next_iff _ _).mp hawaits.right
  have hpauses : (after node steps (n + 1)).loop.phase =
      .pausing (if Expiration.isPassing e then some w else none)
        (wakeTime (delays node steps n) now seed) := by
    rw [loop_after_poll hstep hawaits.left]
    simp [Expiration.poll, Expiration.notified, hphase, Expiration.pause,
      Backoff.next, wakeTime, backoff_after]
  cases hpassing : Expiration.isPassing e with
  | true =>
      rw [hpassing] at hpauses
      exact pausesFrom hpauses
  | false =>
      rw [hpassing] at hpauses
      exact pausesFrom hpauses

theorem isPassing_iff (e : StoreError) :
    Expiration.isPassing e = true <->
      (exists durationMs, e = .timeout durationMs) ∨
        exists reason, e = .unavailable reason := by
  cases e <;> simp [Expiration.isPassing, StoreError.isTransient]

end

/-!
# The loop as a whole
-/

/-- Whatever the store answers to the loop of a node, and whenever the node is
cancelled: (1) as long as nobody else uses the queue, what is added to it are
the resources of the claims that the delivered events remove, in their order;
(2) these are the events with an action that removes and a key that can be
decoded; (3) the loop begins by subscribing and a call stays until it is
answered; (4) a watcher is asked as soon as there is one, and again after every
event; (5) when the store fails to subscribe or the watcher to answer there is
one pause, after which the same watcher is asked if it was a timeout or the
store was unavailable, and a new one is subscribed after any other error; (6)
the pause is drawn from delays that grow with every failure and start anew with
every event; (7) the loop stops only when it is cancelled; (8) from then on no
event is delivered to it, and when it is polled it stops and leaves the queue
alone. -/
theorem listens_until_cancelled (node : Node) (steps : List (Step W)) :
    (forall m n, m ≤ n -> IsAlone steps m n ->
      (after node steps n).node.queue =
        (after node steps m).node.queue.addAll
          ((delivered node steps m n).filterMap
            (Expiration.removed? node.manager.settings.root))) ∧
    (forall e cidr, Expiration.removed? node.manager.settings.root e =
      some cidr <->
      e.action.isRemoval = true ∧
        ClaimKey.toCidr node.manager.settings.root e.key = .ok cidr) ∧
    (after node steps 0).call? = some (.watch node.manager.settings.root) ∧
    (forall n step call, (after node steps n).Awaits call ->
      steps[n]? = some step ->
      step.answers call = false ->
        (after node steps (n + 1)).call? = some call) ∧
    (forall n now seed lead w, (after node steps n).Awaits (.watch lead) ->
      steps[n]? = some (.poll (.subscribed now seed (.ok w))) ->
      (after node steps (n + 1)).call? = some (.next w)) ∧
    (forall n now seed v e w, (after node steps n).Awaits (.next v) ->
      steps[n]? = some (.poll (.notified now seed (.ok e) w)) ->
      (after node steps (n + 1)).call? = some (.next w)) ∧
    (forall n now seed lead e, (after node steps n).Awaits (.watch lead) ->
      steps[n]? = some (.poll (.subscribed now seed (.error e))) ->
      PausesFrom node steps (n + 1) (wakeTime (delays node steps n) now seed)
        (.watch node.manager.settings.root)) ∧
    (forall n now seed v e w, (after node steps n).Awaits (.next v) ->
      steps[n]? = some (.poll (.notified now seed (.error e) w)) ->
      ((exists durationMs, e = .timeout durationMs) ∨
        (exists reason, e = .unavailable reason) ->
        PausesFrom node steps (n + 1) (wakeTime (delays node steps n) now seed)
          (.next w)) ∧
      (¬ ((exists durationMs, e = .timeout durationMs) ∨
        exists reason, e = .unavailable reason) ->
        PausesFrom node steps (n + 1) (wakeTime (delays node steps n) now seed)
          (.watch node.manager.settings.root))) ∧
    (forall n, (after node steps n).loop.phase = .stopped ->
      (after node steps n).isCancelled = true) ∧
    (forall m n, m ≤ n -> (after node steps m).isCancelled = true ->
      delivered node steps m n = [] ∧
      forall p, steps[n]? = some (.poll p) ->
        (after node steps (n + 1)).loop.phase = .stopped ∧
        (after node steps (n + 1)).node.queue =
          (after node steps n).node.queue) := by
  refine ⟨fun m n hmn halone => queue_after hmn halone, removed?_eq_some_iff _,
    rfl, fun n step call hawaits hstep hanswer =>
      call?_of_unanswered hstep hawaits hanswer,
    fun n now seed lead w hawaits hstep => call?_of_subscribed hstep hawaits,
    fun n now seed v e w hawaits hstep => call?_of_heard hstep hawaits,
    fun n now seed lead e hawaits hstep => pausesFrom_of_refused hstep hawaits,
      ?_,
    fun n hstopped => isCancelled_of_stopped hstopped, ?_⟩
  · intro n now seed v e w hawaits hstep
    have hpauses := pausesFrom_of_failed hstep hawaits
    constructor
    · intro hpassing
      rw [if_pos ((isPassing_iff e).mpr hpassing)] at hpauses
      exact hpauses
    · intro hlasting
      rw [if_neg fun hpassing => hlasting
        ((isPassing_iff e).mp hpassing)] at hpauses
      exact hpauses
  · intro m n hmn hcancelled
    refine ⟨delivered_of_isCancelled hmn hcancelled, ?_⟩
    intro p hstep
    rw [after_succ hstep,
      step_poll_of_isCancelled (isCancelled_after hmn hcancelled)]
    exact ⟨rfl, rfl⟩

/-- A claim is deleted, the watcher times out and is closed, and the node is
cancelled while a second claim expires. -/
def troubledSteps : List (Step Nat) :=
  [.poll (.subscribed 0 0 (.ok 7)),
   .poll (.notified 0 0 (.ok ⟨.delete, "/ipclaim/10.0.0.0::24", none, 1⟩) 7),
   .poll (.notified 0 0 (.error (.timeout 5000)) 7),
   .poll (.alarm 499999999),
   .poll (.alarm 500000000),
   .poll (.notified 500000000 0 (.error .watchClosed) 7),
   .poll (.alarm 1500000000),
   .poll (.subscribed 1500000000 0 (.ok 8)),
   .cancel,
   .poll (.notified 1500000000 0
     (.ok ⟨.expire, "/ipclaim/10.0.1.0::24", none, 2⟩) 8)]

theorem listens_until_cancelled_troubled :
    (after idleNode troubledSteps 10).node.queue.items = ["10.0.0.0/24"] ∧
    (after idleNode troubledSteps 5).call? = some (.next 7) ∧
    (after idleNode troubledSteps 7).call? = some (.watch "/ipclaim/") ∧
    (after idleNode troubledSteps 9).call? = some (.next 8) ∧
    delivered idleNode troubledSteps 9 10 = [] ∧
    (after idleNode troubledSteps 10).loop.phase = .stopped := by
  rcases listens_until_cancelled idleNode troubledSteps with
    ⟨hqueue, _, _, hkept, _, _, _, hfailed, _, hquiet⟩
  have halone : IsAlone troubledSteps 0 10 := by
    intro i queue _ _ hstep
    simpa [troubledSteps] using List.mem_of_getElem? hstep
  have hadded : (delivered idleNode troubledSteps 0 10).filterMap
      (Expiration.removed? idleNode.manager.settings.root) =
        ["10.0.0.0/24"] := by
    decide +kernel
  have hcancelled : (after idleNode troubledSteps 9).isCancelled = true := rfl
  have htimeout := (hfailed 2 0 0 7 (.timeout 5000) 7 ⟨rfl, rfl⟩ rfl).left
    (Or.inl ⟨5000, rfl⟩)
  have hclosed :=
    (hfailed 5 500000000 0 7 .watchClosed 7 ⟨rfl, rfl⟩ rfl).right (by simp)
  have hearly : StillPauses idleNode troubledSteps 500000000 3 4 := by
    intro i step hi hi' hstep
    obtain rfl : i = 3 := by omega
    cases hstep
    rfl
  refine ⟨?_, ?_, ?_, ?_, ?_, ?_⟩
  · rw [hqueue 0 10 (Nat.zero_le 10) halone, hadded]
    show (WorkQueue.empty.addAll _).items = _
    simp [WorkQueue.addAll, WorkQueue.add, WorkQueue.empty]
  · exact htimeout.resumes 4 500000000 (by decide) hearly rfl
      (by decide +kernel) rfl
  · exact hclosed.resumes 6 1500000000 (Nat.le_refl 6)
      (fun i _ hi hi' => absurd hi (Nat.not_le.mpr hi')) rfl
        (by decide +kernel) rfl
  · exact hkept 8 .cancel (.next 8) ⟨rfl, rfl⟩ rfl rfl
  · exact (hquiet 9 10 (by decide) hcancelled).left
  · exact ((hquiet 9 9 (Nat.le_refl 9) hcancelled).right _ rfl).left

end Watch
end FairLease
