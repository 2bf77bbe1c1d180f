import FairLease.Proofs.Queue.Pending
import FairLease.Proofs.Run
import FairLease.Simulation.Cluster

/-!
# Watching without end

A watch goes on whenever it is polled: it takes up the answer to its call to the
store, or its pause is over, or it finds its node cancelled and stops. Between
two polls the node may be cancelled, and others may use its queue.
-/

namespace FairLease

open Simulation

namespace Expiration

variable {W : Type}

inductive Poll (W : Type) where
  | subscribed (now seed : Nat) (result : Except StoreError W)
  | notified (now seed : Nat) (result : Except StoreError Event) (w : W)
  | alarm (now : Nat)

/-- What the loop does not wait for leaves it as it is. -/
def poll (x : Expiration W) : Poll W -> Expiration W
  | .subscribed now seed result => x.subscribed now seed result
  | .notified now seed result w => x.notified now seed result w
  | .alarm now => x.resume now

def news? : Phase W -> Poll W -> Option Event
  | .listening _, .notified _ _ (.ok e) _ => some e
  | _, _ => none

def failure? : Phase W -> Poll W -> Option StoreError
  | .subscribing, .subscribed _ _ (.error e) => some e
  | .listening _, .notified _ _ (.error e) _ => some e
  | _, _ => none

def target : Option W -> Phase W
  | some w => .listening w
  | none => .subscribing

def grown (b : Backoff) : Backoff :=
  (b.next 0).2

def delaysAfter (b : Backoff) : Option Event -> Option StoreError -> Backoff
  | some _, _ => b.reset
  | none, some _ => grown b
  | none, none => b

/-- What a poll delivers, how it fails, and what it leads to. -/
inductive Turn (x : Expiration W) :
    Poll W -> Option Event -> Option StoreError -> Expiration W -> Prop where
  | subscribes {now seed : Nat} {w : W} (hphase : x.phase = .subscribing) :
      Turn x (.subscribed now seed (.ok w)) none none ⟨x.backoff, .listening w⟩
  | refused {now seed : Nat} {e : StoreError}
      (hphase : x.phase = .subscribing) :
      Turn x (.subscribed now seed (.error e)) none (some e)
        (x.pause now seed none)
  | hears {now seed : Nat} {e : Event} {v w : W}
      (hphase : x.phase = .listening v) :
      Turn x (.notified now seed (.ok e) w) (some e) none ⟨x.backoff.reset,
        .listening w⟩
  | fails {now seed : Nat} {e : StoreError} {v w : W}
      (hphase : x.phase = .listening v) :
      Turn x (.notified now seed (.error e) w) none (some e)
        (x.pause now seed (if isPassing e then some w else none))
  | wakes {now wakeAt : Nat} {w : Option W}
      (hphase : x.phase = .pausing w wakeAt)
      (hnow : wakeAt ≤ now) :
        Turn x (.alarm now) none none ⟨x.backoff, target w⟩
  | waits {p : Poll W} : Turn x p none none x

theorem turn_poll (x : Expiration W) (p : Poll W) :
    Turn x p (news? x.phase p) (failure? x.phase p) (x.poll p) := by
  rcases x with ⟨backoff, phase⟩
  cases p with
  | subscribed now seed result =>
      cases phase with
      | subscribing =>
          cases result with
          | ok w => exact .subscribes rfl
          | error e => exact .refused rfl
      | listening | pausing | stopped => exact .waits
  | notified now seed result w =>
      cases phase with
      | listening v =>
          cases result with
          | ok e => exact .hears rfl
          | error e => exact .fails rfl
      | subscribing | pausing | stopped => exact .waits
  | alarm now =>
      cases phase with
      | pausing w wakeAt =>
          by_cases hnow : wakeAt ≤ now
          · have hpoll : poll ⟨backoff, .pausing w wakeAt⟩ (.alarm now) =
                ⟨backoff, target w⟩ := by
              cases w <;> simp [poll, resume, hnow, target]
            rw [hpoll]
            exact .wakes rfl hnow
          · have hpoll : poll ⟨backoff, .pausing w wakeAt⟩ (.alarm now) =
                ⟨backoff, .pausing w wakeAt⟩ := by
              simp [poll, resume, hnow]
            rw [hpoll]
            exact .waits
      | subscribing | listening | stopped => exact .waits

theorem Turn.backoff_eq {x y : Expiration W} {p : Poll W} {news : Option Event}
    {failure : Option StoreError} (h : Turn x p news failure y) :
    y.backoff = delaysAfter x.backoff news failure := by
  cases h with
  | subscribes | refused | hears | fails | wakes | waits => rfl

theorem Turn.stopped_before {x y : Expiration W} {p : Poll W}
    {news : Option Event} {failure : Option StoreError}
    (h : Turn x p news failure y) (hy : y.phase = .stopped) :
    x.phase = .stopped := by
  cases h with
  | subscribes | refused | hears | fails => cases hy
  | @wakes _ _ w => cases w <;> cases hy
  | waits => exact hy

theorem handle_eq_addAll (lead : String) (e : Event)
    (queue : WorkQueue String) :
    handle lead e queue = queue.addAll (removed? lead e).toList := by
  unfold handle
  cases removed? lead e <;> rfl

end Expiration

structure Watch (W : Type) where
  node : Node
  loop : Expiration W

namespace Watch

variable {W : Type}

def start (node : Node) : Watch W :=
  ⟨node, .start node.manager.settings⟩

def root (s : Watch W) : String :=
  s.node.manager.settings.root

def isCancelled (s : Watch W) : Bool :=
  s.node.manager.isCancelled

def call? (s : Watch W) : Option (StoreCall W) :=
  (Job.expiration s.loop).call? s.node

def news? (s : Watch W) (p : Expiration.Poll W) : Option Event :=
  if s.isCancelled then none else Expiration.news? s.loop.phase p

def failure? (s : Watch W) (p : Expiration.Poll W) : Option StoreError :=
  if s.isCancelled then none else Expiration.failure? s.loop.phase p

def queueAfter (s : Watch W) (p : Expiration.Poll W) : WorkQueue String :=
  match s.news? p with
  | some e => Expiration.handle s.root e s.node.queue
  | none => s.node.queue

inductive Step (W : Type) where
  | cancel
  /-- Others have used the queue of the node. -/
  | share (queue : WorkQueue String)
  | poll (p : Expiration.Poll W)

def step (s : Watch W) : Step W -> Watch W
  | .cancel => { s with node := World.cancel s.node }
  | .share queue => { s with node := { s.node with queue } }
  | .poll p =>
      { node := { s.node with queue := s.queueAfter p }
        loop := if s.isCancelled then s.loop.cancel else s.loop.poll p }

def after (node : Node) (steps : List (Step W)) (n : Nat) : Watch W :=
  stateAt step (start node) steps n

/-!
# The job of a node

The job with which a node of a simulation watches the store does what is said
here, with the random part of its pauses left out.
-/

theorem call?_eq_watch_iff (s : Watch W) (lead : String) :
    s.call? = some (.watch lead) <-> s.loop.phase = .subscribing ∧
      s.root = lead := by
  cases hphase : s.loop.phase <;> simp [call?, Job.call?, hphase, root]

theorem call?_eq_next_iff (s : Watch W) (v : W) :
    s.call? = some (.next v) <-> s.loop.phase = .listening v := by
  cases hphase : s.loop.phase <;> simp [call?, Job.call?, hphase]

theorem call?_eq_none_iff (s : Watch W) :
    s.call? = none <->
      (exists w wakeAt, s.loop.phase = .pausing w wakeAt) ∨
        s.loop.phase = .stopped := by
  cases hphase : s.loop.phase <;> simp [call?, Job.call?, hphase]

theorem queueAfter_of_news {s : Watch W} {p : Expiration.Poll W} {e : Event}
    (h : s.news? p = some e) :
    s.queueAfter p = s.node.queue.addAll
      (Expiration.removed? s.root e).toList := by
  rw [queueAfter, h, ← Expiration.handle_eq_addAll]

theorem queueAfter_of_no_news {s : Watch W} {p : Expiration.Poll W}
    (h : s.news? p = none) :
    s.queueAfter p = s.node.queue := by
  rw [queueAfter, h]

theorem news?_of_isCancelled {s : Watch W} (h : s.isCancelled = true)
    (p : Expiration.Poll W) :
    s.news? p = none :=
  if_pos h

theorem news?_eq_of_goesOn {s : Watch W} (h : s.isCancelled = false)
    (p : Expiration.Poll W) :
    s.news? p = Expiration.news? s.loop.phase p := by
  rw [news?, h]
  rfl

theorem step_poll_of_isCancelled {s : Watch W} (h : s.isCancelled = true)
    (p : Expiration.Poll W) :
    s.step (.poll p) = { s with loop := s.loop.cancel } := by
  rw [step, queueAfter_of_no_news (news?_of_isCancelled h p), h]
  rfl

theorem step_poll_of_no_news {s : Watch W} (h : s.isCancelled = false)
    {p : Expiration.Poll W} (hnews : Expiration.news? s.loop.phase p = none) :
    s.step (.poll p) = { s with loop := s.loop.poll p } := by
  rw [step, queueAfter_of_no_news ((news?_eq_of_goesOn h p).trans hnews), h]
  rfl

section

variable {σ : Type} (b : Backend W σ) {s : Watch W} (id i : Nat)
  (stage : Stage W) (world : World W σ)

def task (s : Watch W) (id i : Nat) (stage : Stage W) : Simulation.Task W :=
  ⟨id, i, .expiration s.loop, stage⟩

theorem taskStep_of_isCancelled (h : s.isCancelled = true)
    (p : Expiration.Poll W) :
    (s.task id i stage).step b s.node world =
      ((s.step (.poll p)).task id i .idle, world.setNode i
        (s.step (.poll p)).node) := by
  have hcancel : s.node.manager.isCancelled = true := h
  rw [step_poll_of_isCancelled h, Simulation.Task.step, hcancel]
  rfl

theorem taskStep_idle (h : s.isCancelled = false) (hcall : s.call? = none) :
    (s.task id i .idle).step b s.node world =
      ((s.step (.poll (.alarm world.now))).task id i .idle,
        world.setNode i (s.step (.poll (.alarm world.now))).node) := by
  have hgoes : s.node.manager.isCancelled = false := h
  have hnone : (Job.expiration s.loop).call? s.node = none := hcall
  have hnews : Expiration.news? s.loop.phase (.alarm world.now) = none := by
    cases s.loop.phase <;> rfl
  rw [Simulation.Task.step, hgoes, step_poll_of_no_news h hnews]
  simp only [task, hnone, Job.step, Expiration.poll, Bool.false_and,
    Bool.false_eq_true, if_false]

theorem deliver_subscribed (h : s.isCancelled = false)
    (result : Except StoreError W) :
    (s.task id i stage).deliver (.subscribed result) s.node world =
      ((s.step (.poll (.subscribed world.now jitterSeed result))).task id i
        .idle, world.setNode i
          (s.step (.poll (.subscribed world.now jitterSeed result))).node) := by
  have hnews : Expiration.news? s.loop.phase
      (.subscribed world.now jitterSeed result) = none := by
    cases s.loop.phase <;> rfl
  rw [step_poll_of_no_news h hnews]
  rfl

theorem deliver_notified (h : s.isCancelled = false) {v : W}
    (hcall : s.call? = some (.next v)) (result : Except StoreError Event)
    (w : W) :
    (s.task id i stage).deliver (.notified result w) s.node world =
      ((s.step (.poll (.notified world.now jitterSeed result w))).task id i
        .idle, world.setNode i
          (s.step (.poll (.notified world.now jitterSeed result w))).node) := by
  have hphase := (s.call?_eq_next_iff v).mp hcall
  cases result with
  | ok e =>
      have hnews : s.news? (.notified world.now jitterSeed (.ok e) w) =
          some e := by
        rw [news?_eq_of_goesOn h, hphase]
        rfl
      rw [step, queueAfter, hnews, h]
      rfl
  | error e =>
      have hnews : Expiration.news? s.loop.phase
          (.notified world.now jitterSeed (.error e) w) =
          none := by
        cases s.loop.phase <;> rfl
      rw [step_poll_of_no_news h hnews]
      rfl

end

/-!
# Runs
-/

section

variable {node : Node} {steps : List (Step W)}

theorem after_succ {n : Nat} {step : Step W} (h : steps[n]? = some step) :
    after node steps (n + 1) = (after node steps n).step step :=
  stateAt_succ h

theorem after_succ_of_none {n : Nat} (h : steps[n]? = none) :
    after node steps (n + 1) = after node steps n :=
  stateAt_succ_of_none h

theorem settings_step (s : Watch W) (step : Step W) :
    (s.step step).node.manager.settings = s.node.manager.settings := by
  cases step with
  | cancel | share queue | poll p => rfl

theorem root_after (n : Nat) :
    (after node steps n).root = node.manager.settings.root := by
  have hsettings : (after node steps n).node.manager.settings =
      node.manager.settings :=
    stateAt_invariant (P := fun s : Watch W =>
      s.node.manager.settings = node.manager.settings)
      rfl (fun s step h => (settings_step s step).trans h) steps n
  exact congrArg ClaimSettings.root hsettings

theorem isCancelled_step {s : Watch W} (h : s.isCancelled = true)
    (step : Step W) :
    (s.step step).isCancelled = true := by
  cases step with
  | cancel => rfl
  | share queue => exact h
  | poll p => exact h

theorem isCancelled_after {m n : Nat} (hmn : m ≤ n)
    (h : (after node steps m).isCancelled = true) :
    (after node steps n).isCancelled = true :=
  stateAt_related (R := fun s t : Watch W => s.isCancelled = true ->
    t.isCancelled = true) (fun _ hs => hs) (fun hst htu hs => htu (hst hs))
    (fun _ step hs => isCancelled_step hs step) (start node) steps hmn h

end

def idleNode : Node :=
  { uid := "node-a", served := .ofList ["10.0.0.0/24"], policy := .fair
    manager := ⟨.default, false, .empty⟩, queue := .empty, link := .clear }

end Watch
end FairLease
