import FairLease.Proofs.Claim.Admission
import FairLease.Proofs.Claim.Watch
import FairLease.Proofs.Queue.Pending

/-!
# Taking over what disappears

A watch and a reconciler share the queue of their node with any other producers.
The watch adds what is removed and the reconciler takes it out for an attempt,
so that after each removal the resource is queued or has been attempted since.
-/

namespace FairLease

open Simulation

namespace Reconciler

def proceed (phase : Admission.Phase) (r : Reconciler) : Reconciler :=
  match r.phase with
  | .attempting a => { r with phase := .attempting { a with phase } }
  | _ => r

def advance (isCancelled : Bool) (begin : String -> Admission)
    (q : WorkQueue String) (r : Reconciler) : Reconciler × WorkQueue String :=
  match r.phase with
  | .attempting a => (if a.result?.isSome then r.settle else r, q)
  | _ => r.fetch isCancelled begin q

@[simp] theorem served_proceed (phase : Admission.Phase) (r : Reconciler) :
    (r.proceed phase).served = r.served := by
  cases hphase : r.phase <;> simp [proceed, hphase]

@[simp] theorem served_settle (r : Reconciler) :
    r.settle.served = r.served := by
  cases hphase : r.phase <;> simp [settle, hphase]

@[simp] theorem served_take (begin : String -> Admission) (r : Reconciler)
    (item : Option String) :
    (r.take begin item).served = r.served := by
  cases item with
  | none => rfl
  | some cidr => by_cases hserved : r.served.contains cidr <;> simp [take, hserved]

/-- The reconciler leaves the queue alone or takes its oldest item. -/
theorem fetch_cases (isCancelled : Bool) (begin : String -> Admission)
    (q : WorkQueue String) (r : Reconciler) :
    ((r.fetch isCancelled begin q).2 = q ∧
      (r.fetch isCancelled begin q).1.served = r.served) ∨
      exists item rest, q.items = item :: rest ∧
        r.fetch isCancelled begin q =
          (r.take begin (some item),
            { q with items := rest, pending := q.pending.erase item }) := by
  cases hphase : r.phase with
  | attempting a => exact Or.inl (by simp [fetch, hphase])
  | stopped => exact Or.inl (by simp [fetch, hphase])
  | fetching c =>
      rcases c.step_cases isCancelled q with
        hqueue | ⟨item, rest, hitems, hstep⟩
      · refine Or.inl ?_
        rcases hstep : c.step isCancelled q with ⟨c', q'⟩
        rw [hstep] at hqueue
        cases c' <;> simpa [fetch, hphase, hstep] using hqueue
      · exact Or.inr ⟨item, rest, hitems, by simp [fetch, hphase, hstep]⟩

theorem advance_cases (isCancelled : Bool) (begin : String -> Admission)
    (q : WorkQueue String) (r : Reconciler) :
    ((r.advance isCancelled begin q).2 = q ∧
        (r.advance isCancelled begin q).1.served = r.served) ∨
      exists item rest, q.items = item :: rest ∧
        r.advance isCancelled begin q =
          (r.take begin (some item),
            { q with items := rest, pending := q.pending.erase item }) := by
  cases hphase : r.phase with
  | attempting a =>
      refine Or.inl ?_
      cases hresult : a.result? <;> simp [advance, hphase, hresult]
  | fetching | stopped =>
      have hfetch : r.advance isCancelled begin q =
          r.fetch isCancelled begin q := by
        simp [advance, hphase]
      rw [hfetch]
      exact r.fetch_cases isCancelled begin q

end Reconciler

structure Takeover (W : Type) where
  watch : Watch W
  reconciler : Reconciler

namespace Takeover

variable {W : Type}

def start (node : Node) : Takeover W :=
  ⟨.start node, .start node.served⟩

def node (s : Takeover W) : Node :=
  s.watch.node

def queue (s : Takeover W) : WorkQueue String :=
  s.watch.node.queue

/-- The reconciler may have a token of its own by which it is cancelled. -/
inductive Step (W : Type) where
  | cancel
  | poll (p : Expiration.Poll W)
  | add (cidr : String)
  | reconcile (isCancelled : Bool)
  /-- The store answers to an attempt, and renewals may have been started or
  ended. -/
  | attempt (phase : Admission.Phase) (registry : Registry)

def reconciled (s : Takeover W) (isCancelled : Bool) :
    Reconciler × WorkQueue String :=
  s.reconciler.advance isCancelled (s.node.attempt s.node.uid) s.queue

def setRegistry (registry : Registry) (w : Watch W) : Watch W :=
  { w with node := { w.node with manager := { w.node.manager with registry } } }

def step (s : Takeover W) : Step W -> Takeover W
  | .cancel => { s with watch := s.watch.step .cancel }
  | .poll p => { s with watch := s.watch.step (.poll p) }
  | .add cidr => { s with watch := s.watch.step (.share (s.queue.add cidr).2) }
  | .reconcile isCancelled =>
      { watch := s.watch.step (.share (s.reconciled isCancelled).2)
        reconciler := (s.reconciled isCancelled).1 }
  | .attempt phase registry =>
      { watch := setRegistry registry s.watch, reconciler := s.reconciler.proceed phase }

def after (node : Node) (steps : List (Step W)) (n : Nat) : Takeover W :=
  stateAt step (start node) steps n

/-!
# The jobs of a node

The jobs with which a node of a simulation takes over claims do what is said
here.
-/

theorem job_step_reconcile {σ : Type} (b : Backend W σ) (s : Takeover W)
    (i : Nat) (world : World W σ)
    (h : forall a, s.reconciler.phase = .attempting a -> a.result? ≠ none) :
    (Job.reconciler s.reconciler).step b i s.node world =
      (.reconciler (s.step (.reconcile s.watch.isCancelled)).reconciler,
        (s.step (.reconcile s.watch.isCancelled)).node, world) := by
  cases hphase : s.reconciler.phase with
  | attempting a =>
      cases hresult : a.result? with
      | none => exact absurd hresult (h a hphase)
      | some result =>
          simp [Job.step, hphase, hresult, step, reconciled, Reconciler.advance,
            node, queue, Watch.step]
  | fetching | stopped =>
      simp [Job.step, hphase, step, reconciled, Reconciler.advance, node, queue,
        Watch.step, Watch.isCancelled]

theorem receiveAdmission_eq (n : Node) (reply : StoreReply W) (a : Admission) :
    exists phase, receiveAdmission n reply a = { a with phase } := by
  have huid : (receiveAdmission n reply a).uid = a.uid := by
    cases reply <;> simp [receiveAdmission]
  have hcidr : (receiveAdmission n reply a).cidr = a.cidr := by
    cases reply <;> simp [receiveAdmission]
  refine ⟨(receiveAdmission n reply a).phase, ?_⟩
  rw [← huid, ← hcidr]

theorem job_receive_attempt (s : Takeover W) (now : Nat) (reply : StoreReply W)
    {a : Admission} (hphase : s.reconciler.phase = .attempting a) :
    exists phase,
      (Job.reconciler s.reconciler).receive now reply s.node =
        (.reconciler (s.step
          (.attempt phase s.node.manager.registry)).reconciler,
            (s.step (.attempt phase s.node.manager.registry)).node) := by
  rcases receiveAdmission_eq s.node reply a with ⟨phase, hkept⟩
  refine ⟨phase, ?_⟩
  simp only [Job.receive, hphase, hkept, step, Reconciler.proceed]
  rfl

theorem job_step_attempt {σ : Type} (b : Backend W σ) (s : Takeover W) (i : Nat)
    (world : World W σ) {a : Admission}
    (hphase : s.reconciler.phase = .attempting a) (hresult : a.result? = none) :
    exists phase registry world',
      (Job.reconciler s.reconciler).step b i s.node world =
        (.reconciler (s.step (.attempt phase registry)).reconciler,
          (s.step (.attempt phase registry)).node, world') := by
  cases hadmission : a.phase with
  | registering =>
      rcases hensured : s.node.manager.registry.ensure
        s.node.manager.isCancelled world.now
        (s.node.manager.lease a) with ⟨id, registry⟩
      refine ⟨.finished (.ok true), registry, ?_⟩
      cases id with
      | none =>
          refine ⟨world, ?_⟩
          simp only [Job.step, hphase, hresult, stepAdmission, hadmission,
            World.register, Manager.register, hensured, step,
            Reconciler.proceed, Admission.registered]
          rfl
      | some id =>
          refine ⟨(world.wake b).spawn i (.renewal id), ?_⟩
          simp only [Job.step, hphase, hresult, stepAdmission, hadmission,
            World.register, Manager.register, hensured, step,
            Reconciler.proceed, Admission.registered]
          rfl
  | listing | creating =>
      refine ⟨a.phase, s.node.manager.registry, world, ?_⟩
      simp only [Job.step, hphase, hresult, stepAdmission, hadmission, step,
        Reconciler.proceed]
      rw [← hadmission]
      rfl
  | finished result => simp [Admission.result?, hadmission] at hresult

/-!
# The queue

The watch and the producers add to the queue, and only the reconciler takes
from it.
-/

theorem queue_poll_of_removed {s : Takeover W} {p : Expiration.Poll W}
    {e : Event} {cidr : String} (hnews : s.watch.news? p = some e)
    (hremoved : Expiration.removed? s.watch.root e = some cidr) :
    (s.step (.poll p)).queue = (s.queue.add cidr).2 := by
  have hqueue := Watch.queueAfter_of_news hnews
  rw [hremoved] at hqueue
  exact hqueue

theorem queue_step_cases (s : Takeover W) (step : Step W) :
    (s.step step).queue = s.queue ∨
      (exists cidr, (s.step step).queue = (s.queue.add cidr).2) ∨
      exists isCancelled item rest, step = .reconcile isCancelled ∧
        s.queue.items = item :: rest ∧
        (s.step step).queue =
          { s.queue with items := rest, pending := s.queue.pending.erase item } ∧
        (s.step step).reconciler = s.reconciler.take (s.node.attempt s.node.uid)
        (some item) := by
  cases step with
  | cancel | attempt => exact Or.inl rfl
  | add cidr => exact Or.inr (Or.inl ⟨cidr, rfl⟩)
  | poll p =>
      cases hnews : s.watch.news? p with
      | none => exact Or.inl (Watch.queueAfter_of_no_news hnews)
      | some e =>
          cases hremoved : Expiration.removed? s.watch.root e with
          | none =>
              have hqueue := Watch.queueAfter_of_news hnews
              rw [hremoved] at hqueue
              exact Or.inl hqueue
          | some cidr =>
              exact Or.inr (Or.inl ⟨cidr, queue_poll_of_removed hnews hremoved⟩)
  | reconcile isCancelled =>
      rcases s.reconciler.advance_cases isCancelled (s.node.attempt s.node.uid)
        s.queue with
        ⟨hqueue, _⟩ | ⟨item, rest, hitems, htaken⟩
      · exact Or.inl hqueue
      · exact Or.inr (Or.inr ⟨isCancelled, item, rest, rfl, hitems,
          congrArg Prod.snd htaken, congrArg Prod.fst htaken⟩)

theorem served_step (s : Takeover W) (step : Step W) :
    (s.step step).reconciler.served = s.reconciler.served := by
  cases step with
  | cancel | poll | add => rfl
  | attempt phase registry => exact Reconciler.served_proceed phase s.reconciler
  | reconcile isCancelled =>
      rcases s.reconciler.advance_cases isCancelled (s.node.attempt s.node.uid)
        s.queue with
        ⟨_, hserved⟩ | ⟨item, rest, _, htaken⟩
      · exact hserved
      · show (s.reconciled isCancelled).1.served = _
        rw [reconciled, htaken]
        exact Reconciler.served_take _ s.reconciler _

/-- The queue can be relied on and takes what is added. -/
structure IsOpen (s : Takeover W) : Prop where
  consistent : s.queue.IsConsistent
  accepts : s.queue.isShutDown = false

theorem IsOpen.step {s : Takeover W} (h : s.IsOpen) (step : Step W) :
    (s.step step).IsOpen := by
  rcases s.queue_step_cases step with
    hsame | ⟨cidr, hadd⟩ | ⟨_, item, rest, _, hitems, htaken, _⟩
  · exact ⟨by rw [hsame]; exact h.consistent, by rw [hsame]; exact h.accepts⟩
  · constructor
    · rw [hadd]
      exact h.consistent.add cidr
    · rw [hadd, WorkQueue.isShutDown_add]
      exact h.accepts
  · constructor
    · rw [htaken]
      exact WorkQueue.isConsistent_erase h.consistent hitems
    · rw [htaken]
      exact h.accepts

structure Takes (s : Takeover W) (step : Step W) (cidr : String) : Prop where
  reconciles : exists isCancelled, step = .reconcile isCancelled
  oldest : exists rest, s.queue.items = cidr :: rest ∧
    (s.step step).queue.items = rest
  begins : (s.step step).reconciler.phase = .attempting
    (s.node.attempt s.node.uid cidr)

theorem pending_step {s : Takeover W} {cidr : String}
    (hserved : cidr ∈ s.reconciler.served) (hpending : cidr ∈ s.queue.items)
    (step : Step W) :
    cidr ∈ (s.step step).queue.items ∨ s.Takes step cidr := by
  rcases s.queue_step_cases step with
    hsame | ⟨other, hadd⟩ | ⟨isCancelled, item, rest, hstep, hitems,
      htaken, hnext⟩
  · rw [hsame]
    exact Or.inl hpending
  · rw [hadd]
    exact Or.inl (WorkQueue.mem_add_of_mem hpending other)
  · rw [hitems, List.mem_cons] at hpending
    rcases hpending with rfl | hlater
    · refine Or.inr ⟨⟨isCancelled, hstep⟩, ⟨rest, hitems, by rw [htaken]⟩, ?_⟩
      rw [hnext, Reconciler.take,
        if_pos (Std.ExtTreeSet.contains_iff_mem.mpr hserved)]
    · rw [htaken]
      exact Or.inl hlater

/-!
# Removals
-/

section

variable {node : Node} {steps : List (Step W)}

theorem after_succ {n : Nat} {step : Step W} (h : steps[n]? = some step) :
    after node steps (n + 1) = (after node steps n).step step :=
  stateAt_succ h

theorem isOpen_after (hqueue : node.queue.IsConsistent)
    (hopen : node.queue.isShutDown = false) (n : Nat) :
    (after node steps n).IsOpen :=
  stateAt_invariant ⟨hqueue, hopen⟩ (fun _ step hs => hs.step step) steps n

theorem served_after (n : Nat) :
    (after node steps n).reconciler.served = node.served :=
  stateAt_invariant (P := fun s : Takeover W =>
    s.reconciler.served = node.served)
    rfl (fun s step hs => (s.served_step step).trans hs) steps n

def Handles (s : Takeover W) (step : Step W) (cidr : String) : Prop :=
  exists p e, step = .poll p ∧ s.watch.news? p = some e ∧
    Expiration.removed? s.watch.root e = some cidr

theorem pending_of_handles {s : Takeover W} (h : s.IsOpen) {step : Step W}
    {cidr : String} (hhandles : s.Handles step cidr) :
    cidr ∈ (s.step step).queue.items := by
  rcases hhandles with ⟨p, e, rfl, hnews, hremoved⟩
  rw [queue_poll_of_removed hnews hremoved]
  exact h.consistent.mem_add_self h.accepts cidr

/-- In every run of a watch, a reconciler and other producers on one open queue:
once the removal of the claim on a served resource has been handled, the
resource is in the queue, or the reconciler has since taken it out and begun an
attempt at it. -/
theorem no_removal_is_lost (hqueue : node.queue.IsConsistent)
    (hopen : node.queue.isShutDown = false) {cidr : String}
    (hserved : cidr ∈ node.served) {m n : Nat} (hmn : m < n) {step : Step W}
    (hstep : steps[m]? = some step)
    (hhandles : (after node steps m).Handles step cidr) :
    (cidr ∈ (after node steps n).queue.items ∧
        (after node steps n).queue.pending.contains cidr = true) ∨
      exists k taking, m < k ∧ k < n ∧ steps[k]? = some taking ∧
        (after node steps k).Takes taking cidr := by
  have hsince : cidr ∈ (after node steps n).queue.items ∨
      exists k taking, m < k ∧ k < n ∧ steps[k]? = some taking ∧
        (after node steps k).Takes taking cidr := by
    induction hmn with
    | refl =>
        rw [after_succ hstep]
        exact Or.inl (pending_of_handles (isOpen_after hqueue hopen m) hhandles)
    | @step n hmn ih =>
        rcases ih with hpending | ⟨k, taking, hmk, hkn, htaking, htakes⟩
        · cases hnext : steps[n]? with
          | none =>
              rw [show after node steps (n + 1) = after node steps n from
                stateAt_succ_of_none hnext]
              exact Or.inl hpending
          | some next =>
              have hknown : cidr ∈ (after node steps n).reconciler.served := by
                rw [served_after]
                exact hserved
              rcases pending_step hknown hpending next with hkept | htakes
              · rw [after_succ hnext]
                exact Or.inl hkept
              · exact Or.inr ⟨n, next, hmn, Nat.lt_succ_self n, hnext, htakes⟩
        · exact Or.inr ⟨k, taking, hmk, Nat.lt_succ_of_lt hkn, htaking, htakes⟩
  rcases hsince with hpending | htaken
  · exact Or.inl ⟨hpending,
      ((isOpen_after hqueue hopen n).consistent.known cidr).mpr hpending⟩
  · exact Or.inr htaken

end

def lapse (index : Nat) : Event :=
  ⟨.expire, "/ipclaim/10.0.0.0::24", none, index⟩

/-- The claim lapses twice more while an attempt at the resource is under
way. -/
def overtakingSteps : List (Step Nat) :=
  [.poll (.subscribed 0 0 (.ok 7)),
   .poll (.notified 0 0 (.ok (lapse 1)) 7),
   .reconcile false,
   .reconcile false,
   .poll (.notified 0 0 (.ok (lapse 2)) 7),
   .poll (.notified 0 0 (.ok (lapse 3)) 7),
   .attempt (.finished (.ok false)) .empty,
   .reconcile false,
   .reconcile false,
   .reconcile false]

theorem removed?_lapse (index : Nat) :
    Expiration.removed? "/ipclaim/" (lapse index) = some "10.0.0.0/24" := by
  have hcidr : (ClaimKey.toCidr "/ipclaim/" "/ipclaim/10.0.0.0::24").toOption =
      some "10.0.0.0/24" := by
    decide +kernel
  simp [Expiration.removed?, lapse, Action.isRemoval, hcidr]

/-- The first of the two lapses is still pending after the second, with which it
coalesces, and an attempt is begun after both. -/
theorem no_removal_is_lost_overtaking :
    "10.0.0.0/24" ∈ (after Watch.idleNode overtakingSteps 6).queue.items ∧
    exists k taking, 5 < k ∧ k < 10 ∧ overtakingSteps[k]? = some taking ∧
      (after Watch.idleNode overtakingSteps k).Takes taking "10.0.0.0/24" := by
  have hqueue : Watch.idleNode.queue.IsConsistent :=
    WorkQueue.isConsistent_empty
  have hserved : "10.0.0.0/24" ∈ Watch.idleNode.served :=
    Std.ExtTreeSet.contains_iff_mem.mp (by decide +kernel)
  constructor
  · have hstep : overtakingSteps[4]? =
        some (.poll (.notified 0 0 (.ok (lapse 2)) 7)) := rfl
    rcases no_removal_is_lost hqueue rfl hserved (show 4 < 6 by decide) hstep
        ⟨_, _, rfl, rfl, removed?_lapse 2⟩ with
      ⟨hpending, _⟩ | ⟨k, taking, hmk, hkn, htaking, htakes⟩
    · exact hpending
    · rcases htakes.reconciles with ⟨isCancelled, rfl⟩
      obtain rfl : k = 5 := by omega
      cases htaking
  · have hstep : overtakingSteps[5]? =
        some (.poll (.notified 0 0 (.ok (lapse 3)) 7)) := rfl
    have hempty : (after Watch.idleNode overtakingSteps 10).queue.items =
        [] := by
      simp [after, overtakingSteps, stateAt, start, step, queue, reconciled,
        setRegistry, Watch.start, Watch.idleNode, Watch.step, Watch.root,
        Watch.isCancelled, Watch.queueAfter, Watch.news?, Expiration.start,
        Expiration.poll, Expiration.subscribed, Expiration.notified,
        Expiration.news?, Expiration.handle, removed?_lapse,
        ClaimSettings.default, ClaimSettings.defaultRoot, Reconciler.start,
        Reconciler.advance,
        Reconciler.fetch, Reconciler.take, Reconciler.proceed,
        Reconciler.settle, Admission.result?, Consumer.step, WorkQueue.empty,
        WorkQueue.add, WorkQueue.tryGet]
    rcases no_removal_is_lost hqueue rfl hserved (show 5 < 10 by decide) hstep
        ⟨_, _, rfl, rfl, removed?_lapse 3⟩ with ⟨hpending, _⟩ | htaken
    · rw [hempty] at hpending
      cases hpending
    · exact htaken

end Takeover
end FairLease
