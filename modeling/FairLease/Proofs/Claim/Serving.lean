import FairLease.Proofs.Claim.Errand
import FairLease.Proofs.Claim.Takeover
import FairLease.Proofs.Config.Validity
import FairLease.Service.Startup

/-!
# Attempts at what a node serves

A node only attempts what it serves, in its own name. If all of that can be
claimed then no attempt is refused for what is asked, whatever the store answers
and whatever becomes of the rest of the world in the meantime.
-/

namespace FairLease

open Simulation

/-!
# Refusals
-/

def ClaimError.IsRefusal : ClaimError -> Prop
  | .invalidClaim _ => True
  | .invalidSettings _ => True
  | _ => False

theorem ClaimError.kind_of_not_isRefusal {e : ClaimError} (h : ¬ e.IsRefusal) :
    e.kind ≠ "InvalidClaim" ∧ e.kind ≠ "InvalidConfig" := by
  cases e with
  | invalidClaim | invalidSettings => exact absurd trivial h
  | corruptedKey | shutDown | storage => simp [ClaimError.kind]

namespace Admission

inductive Phase.IsProper : Phase -> Prop where
  | reading (found : Snapshot) (token : Option String) :
      IsProper (.listing (.reading found token))
  | creating : IsProper .creating
  | registering : IsProper .registering
  | granted (isGranted : Bool) : IsProper (.finished (.ok isGranted))
  | failed {e : ClaimError} : ¬ e.IsRefusal -> IsProper (.finished (.error e))

section

variable {a : Admission}

theorem isProper_start {uid cidr : String} (huid : uid ≠ "")
    (hcidr : ClaimKey.defect? cidr = none) (isShutDown : Bool) :
    (start isShutDown uid cidr).phase.IsProper := by
  have hentry : entryError? isShutDown uid cidr = if isShutDown then
      some .shutDown else none := by
    simp [entryError?, huid, hcidr]
  rw [start, hentry]
  cases isShutDown with
  | true => exact .failed id
  | false => exact .reading _ _

theorem isProper_decide (a : Admission) (found : Snapshot) :
    (a.decide found).IsProper := by
  rcases a.decide_cases found with ⟨_, h⟩ | ⟨_, _, h⟩ | h
  · rw [h]
    exact .registering
  · rw [h]
    exact .creating
  · rw [h]
    exact .granted false

theorem isProper_listed (h : a.phase.IsProper) (s : ClaimSettings)
    (page : Except StoreError ScanResult) :
    (a.listed s page).phase.IsProper := by
  unfold listed
  cases hphase : a.phase with
  | listing l =>
      rw [hphase] at h
      cases h with
      | reading found token =>
          cases page with
          | error e => exact .failed id
          | ok page =>
              simp only [Listing.receive]
              cases hcollect : Listing.collect s.root found page.entries with
              | error e =>
                  rcases Listing.collect_eq_error hcollect with ⟨kv, _, hkey⟩
                  rw [(ClaimKey.toCidr_eq_error_iff.mp hkey).left]
                  exact .failed id
              | ok all =>
                  cases hnext : Listing.following page with
                  | some key => exact .reading all (some key)
                  | none => exact a.isProper_decide all
  | creating | registering | finished =>
      simp only [hphase]
      rw [hphase] at h
      exact h

theorem isProper_created (h : a.phase.IsProper)
    (result : Except StoreError WriteResult) :
    (a.created result).phase.IsProper := by
  unfold created
  cases hphase : a.phase with
  | creating =>
      cases result with
      | ok w => exact .registering
      | error e =>
          cases e with
          | keyExists key => exact .granted false
          | _ => exact .failed id
  | listing | registering | finished =>
      simp only [hphase]
      rw [hphase] at h
      exact h

theorem isProper_registered (h : a.phase.IsProper) :
    a.registered.phase.IsProper := by
  unfold registered
  cases hphase : a.phase with
  | registering => exact .granted true
  | listing | creating | finished =>
      simp only [hphase]
      rw [hphase] at h
      exact h

theorem isProper_receive {W : Type} (h : a.phase.IsProper) (n : Node)
    (reply : StoreReply W) :
    (receiveAdmission n reply a).phase.IsProper := by
  cases reply with
  | listed page => exact isProper_listed h _ page
  | written result => exact isProper_created h result
  | found | subscribed | notified => exact h

theorem Phase.IsProper.not_isRefusal (h : a.phase.IsProper) {e : ClaimError}
    (he : a.result? = some (.error e)) : ¬ e.IsRefusal := by
  rw [result?_eq_some_iff.mp he] at h
  cases h with
  | failed hproper => exact hproper

end

end Admission

/-!
# What the queue leads to
-/

namespace Reconciler

variable {begin : String -> Admission} {r : Reconciler} {a : Admission}

theorem served_fetch (isCancelled : Bool) (begin : String -> Admission)
    (q : WorkQueue String) (r : Reconciler) :
    (r.fetch isCancelled begin q).1.served = r.served := by
  rcases r.fetch_cases isCancelled begin q with
    ⟨_, hserved⟩ | ⟨item, rest, _, hfetch⟩
  · exact hserved
  · rw [hfetch]
    exact r.served_take begin (some item)

theorem attempting_take {item : Option String}
    (h : (r.take begin item).phase = .attempting a) :
    exists cidr, cidr ∈ r.served ∧ a = begin cidr := by
  cases item with
  | none => cases h
  | some cidr =>
      by_cases hserved : r.served.contains cidr
      · simp only [take, hserved, if_true] at h
        cases h
        exact ⟨cidr, Std.ExtTreeSet.contains_iff_mem.mp hserved, rfl⟩
      · simp [take, hserved] at h

theorem attempting_fetch {isCancelled : Bool} {q : WorkQueue String}
    (h : (r.fetch isCancelled begin q).1.phase = .attempting a) :
    r.phase = .attempting a ∨ exists cidr, cidr ∈ r.served ∧
      a = begin cidr := by
  cases hphase : r.phase with
  | fetching c =>
      rcases hstep : c.step isCancelled q with ⟨c', q'⟩
      cases c' with
      | returned item =>
          simp only [fetch, hphase, hstep] at h
          exact Or.inr (attempting_take h)
      | _ => simp [fetch, hphase, hstep] at h
  | attempting => exact Or.inl (by simpa [fetch, hphase] using h)
  | stopped => simp [fetch, hphase] at h

end Reconciler

/-!
# Jobs that claim

A job of a node attempts one resource at a time, and takes those to attempt from
what the node serves.
-/

namespace Simulation

/-- The jobs with which a node claims what it serves: everything once, one
resource, or what it is told by the queue. -/
inductive Node.Claims {W : Type} (n : Node) : Job W -> Prop where
  | pass : n.Claims (World.passJob n)
  | one (cidr : String) : n.Claims (World.reconcileJob n cidr)
  | queue : n.Claims (World.reconcilerJob n)

def Job.attempt? {W : Type} : Job W -> Option Admission
  | .pass p => p.current
  | .reconciling a => some a
  | .reconciler r =>
      match r.phase with
      | .attempting a => some a
      | _ => none
  | _ => none

structure Servable (uid : String) (served : Served) : Prop where
  uid : uid ≠ ""
  served : forall cidr, cidr ∈ served -> ClaimKey.defect? cidr = none

structure Node.Serves (n : Node) (uid : String) (served : Served) : Prop where
  uid : n.uid = uid
  served : n.served = served

/-- The job attempts what is served, and no attempt of it has been refused. -/
inductive Job.IsProper {W : Type} (served : Served) : Job W -> Prop where
  | pass {p : ClaimPass} :
      (forall cidr, cidr ∈ p.pending -> cidr ∈ served) ->
      (forall a, p.current = some a -> a.phase.IsProper) ->
        IsProper served (.pass p)
  | reconciling {a : Admission} : a.phase.IsProper ->
      IsProper served (.reconciling a)
  | reconciler {r : Reconciler} :
      r.served = served ->
      (forall a, r.phase = .attempting a -> a.phase.IsProper) ->
      IsProper served (.reconciler r)
  | finished (result : Result) : IsProper served (.finished result)

section

variable {W σ : Type} {uid : String} {served : Served} {n : Node} {job : Job W}

theorem isProper_attempt (hservable : Servable uid served)
    (h : n.Serves uid served) {cidr : String} (hcidr : cidr ∈ served) :
    (n.attempt n.uid cidr).phase.IsProper := by
  unfold Node.attempt
  cases n.policy with
  | fair =>
      have huid : n.uid ≠ "" := h.uid ▸ hservable.uid
      exact Admission.isProper_start huid (hservable.served cidr hcidr) _
  | granting => exact .granted true

theorem Node.Claims.isProper (hclaims : n.Claims job)
    (hservable : Servable uid served) (h : n.Serves uid served) :
    job.IsProper served := by
  cases hclaims with
  | pass =>
      refine .pass ?_ (by simp [ClaimPass.start])
      intro cidr hcidr
      rw [← h.served]
      exact Std.ExtTreeSet.mem_toList.mp hcidr
  | one cidr =>
      unfold World.reconcileJob
      split
      · rename_i hcidr
        rw [h.served, Std.ExtTreeSet.contains_iff_mem] at hcidr
        exact .reconciling (isProper_attempt hservable h hcidr)
      · exact .finished _
  | queue => exact .reconciler h.served (by simp [Reconciler.start])

theorem Job.IsProper.attempt? (h : job.IsProper served) {a : Admission}
    (ha : job.attempt? = some a) : a.phase.IsProper := by
  cases h with
  | pass _ hcurrent => exact hcurrent a ha
  | reconciling hproper =>
      cases ha
      exact hproper
  | @reconciler r _ hattempt =>
      refine hattempt a ?_
      cases hphase : r.phase <;> simp_all [Job.attempt?]
  | finished => cases ha

theorem Job.IsProper.canCancel (h : job.IsProper served) (n : Node) :
    job.canCancel n = false := by
  cases h <;> rfl

theorem Job.IsProper.receive (h : job.IsProper served) (n : Node) (now : Nat)
    (reply : StoreReply W) :
    (job.receive now reply n).1.IsProper served ∧
      (job.receive now reply n).2 = n := by
  cases h with
  | @pass p hpending hcurrent =>
      refine ⟨.pass hpending ?_, rfl⟩
      intro a ha
      rcases Option.map_eq_some_iff.mp ha with ⟨before, hbefore, rfl⟩
      exact Admission.isProper_receive (hcurrent before hbefore) n reply
  | reconciling hproper =>
      exact ⟨.reconciling (Admission.isProper_receive hproper n reply), rfl⟩
  | @reconciler r hserved hattempt =>
      cases hphase : r.phase with
      | attempting a =>
          simp only [Job.receive, hphase]
          refine ⟨.reconciler hserved ?_, trivial⟩
          rintro _ ⟨⟩
          exact Admission.isProper_receive (hattempt a hphase) n reply
      | fetching | stopped =>
          simp only [Job.receive, hphase]
          exact ⟨.reconciler hserved hattempt, trivial⟩
  | finished result => exact ⟨.finished result, rfl⟩

theorem serves_register (h : n.Serves uid served) (node : Nat) (a : Admission)
    (w : World W σ) (b : Backend W σ) :
    (w.register b node n a).1.Serves uid served := by
  unfold World.register
  split <;> exact ⟨h.uid, h.served⟩

theorem serves_stepAdmission (h : n.Serves uid served) (node : Nat)
    (a : Admission) (w : World W σ) (b : Backend W σ) :
    (stepAdmission b node a n w).2.1.Serves uid served := by
  unfold stepAdmission
  split
  · exact serves_register h node a w b
  · exact h

theorem isProper_stepAdmission {a : Admission} (h : a.phase.IsProper)
    (node : Nat) (n : Node) (w : World W σ) (b : Backend W σ) :
    (stepAdmission b node a n w).1.phase.IsProper := by
  unfold stepAdmission
  split
  · exact Admission.isProper_registered h
  · exact h

/-- What is attempted next is the first of what is pending, or an item of the
queue that is served. -/
theorem Job.IsProper.step (h : job.IsProper served)
    (hservable : Servable uid served) (hn : n.Serves uid served)
    (b : Backend W σ) (node : Nat) (w : World W σ) :
    (job.step b node n w).1.IsProper served ∧
      (job.step b node n w).2.1.Serves uid served := by
  cases h with
  | @pass p hpending hcurrent =>
      cases hp : p.current with
      | none =>
          simp only [Job.step, hp]
          refine ⟨?_, hn⟩
          rcases p with ⟨count, pending, current, isFinished⟩
          cases hp
          cases pending with
          | nil => exact .pass hpending hcurrent
          | cons cidr rest =>
              cases hcancelled : n.manager.isCancelled with
              | true => exact .pass hpending hcurrent
              | false =>
                  refine .pass (fun x hx =>
                    hpending x (List.mem_cons_of_mem cidr hx)) ?_
                  rintro _ ⟨⟩
                  exact isProper_attempt hservable hn
                    (hpending cidr List.mem_cons_self)
      | some a =>
          have ha : a.phase.IsProper := hcurrent a hp
          cases hresult : a.result? with
          | some result =>
              simp only [Job.step, hp, hresult]
              exact ⟨.pass hpending (by simp [ClaimPass.settle]), hn⟩
          | none =>
              simp only [Job.step, hp, hresult]
              refine ⟨.pass hpending ?_, serves_stepAdmission hn node a w b⟩
              rintro _ ⟨⟩
              exact isProper_stepAdmission ha node n w b
  | @reconciling a hproper =>
      exact ⟨.reconciling (isProper_stepAdmission hproper node n w b),
        serves_stepAdmission hn node a w b⟩
  | @reconciler r hserved hattempt =>
      cases hphase : r.phase with
      | attempting a =>
          cases hresult : a.result? with
          | some result =>
              simp only [Job.step, hphase, hresult]
              exact ⟨.reconciler (by simpa using hserved)
                (by simp [Reconciler.settle, hphase]), hn⟩
          | none =>
              simp only [Job.step, hphase, hresult]
              refine ⟨.reconciler hserved ?_,
                serves_stepAdmission hn node a w b⟩
              rintro _ ⟨⟩
              exact isProper_stepAdmission (hattempt a hphase) node n w b
      | fetching | stopped =>
          simp only [Job.step, hphase]
          refine ⟨.reconciler ((Reconciler.served_fetch ..).trans hserved) ?_,
            hn.uid, hn.served⟩
          intro a ha
          rcases Reconciler.attempting_fetch ha with hold | ⟨cidr, hcidr, rfl⟩
          · exact hattempt a hold
          · exact isProper_attempt hservable hn (hserved ▸ hcidr)
  | finished result => exact ⟨.finished result, hn⟩

end

/-!
# Tasks in their world

A task of a node makes its calls to a store that may be any. Everything else in
the world may change between two of its steps, except what the node is called
and what it serves.
-/

abbrev Scene (W σ : Type) : Type :=
  Task W × World W σ

namespace Scene

variable {W σ : Type}

inductive Event (W σ : Type) where
  | go
  /-- Others have led to another world, and have used the node of the task. -/
  | meanwhile (w : World W σ) (manager : Manager) (queue : WorkQueue String)
      (link : Link)

def step (b : Backend W σ) (s : Scene W σ) : Event W σ -> Scene W σ
  | .go =>
      match s.2.nodes[s.1.node]? with
      | none => s
      | some n => s.1.step b n s.2
  | .meanwhile w manager queue link =>
      (s.1, { w with
        nodes := s.2.nodes.modify s.1.node (fun n => { n with manager, queue, link }) })

def after (b : Backend W σ) (start : Scene W σ) (events : List (Event W σ))
    (n : Nat) : Scene W σ :=
  stateAt (step b) start events n

/-- The job is in order, and the node is what it was. -/
structure IsProper (uid : String) (served : Served) (s : Scene W σ) : Prop where
  job : s.1.job.IsProper served
  node : forall n, s.2.nodes[s.1.node]? = some n -> n.Serves uid served

section

variable {uid : String} {served : Served} {n : Node} {t : Task W}
  {w : World W σ}

theorem isProper_setNode (hjob : t.job.IsProper served)
    (hn : n.Serves uid served) (w : World W σ) :
    IsProper uid served (t, w.setNode t.node n) where
  job := hjob
  node := by
    -- out of bounds nothing is set, and no node is found
    intro n' hn'
    simp only [World.setNode, Array.getElem?_setIfInBounds] at hn'
    grind

theorem isProper_deliver (hjob : t.job.IsProper served)
    (hn : n.Serves uid served) (reply : StoreReply W) (w : World W σ) :
    IsProper uid served (t.deliver reply n w) := by
  rcases hjob.receive n w.now reply with ⟨hreceived, hsame⟩
  unfold Task.deliver
  rw [← hsame] at hn
  exact isProper_setNode (t := { t with job := (t.job.receive w.now reply n).1, stage := .idle })
    hreceived hn w

theorem isProper_listen (h : IsProper uid served (t, w))
    (hn : n.Serves uid served) (b : Backend W σ) (watcher : W) :
    IsProper uid served (t.listen b watcher n w) := by
  unfold Task.listen
  split
  · exact isProper_deliver h.job hn _ _
  · exact ⟨h.job, h.node⟩

theorem isProper_leave (h : IsProper uid served (t, w))
    (hn : n.Serves uid served) (fault : Fault) (reply : StoreReply W) :
    IsProper uid served (t.leave fault reply n w) := by
  unfold Task.leave
  split
  · exact isProper_deliver h.job hn _ _
  · exact ⟨h.job, h.node⟩

theorem isProper_arrive (h : IsProper uid served (t, w))
    (hn : n.Serves uid served) (b : Backend W σ) (fault : Fault)
    (call : StoreCall W) :
    IsProper uid served (t.arrive b fault call n w) := by
  unfold Task.arrive
  split
  · exact isProper_leave h hn _ _
  · split
    · refine isProper_leave ?_ hn _ _
      exact ⟨h.job, h.node⟩
    · exact ⟨h.job, h.node⟩

theorem isProper_depart (hjob : t.job.IsProper served)
    (hn : n.Serves uid served) (b : Backend W σ) (call : StoreCall W)
    (w : World W σ) :
    IsProper uid served (t.depart b call n w) := by
  rcases hpass : n.link.pass call.kind with ⟨fault, link⟩
  have hlinked : Node.Serves { n with link } uid served := ⟨hn.uid, hn.served⟩
  have hset := isProper_setNode hjob hlinked w
  unfold Task.depart
  simp only [hpass]
  split
  · split
    · exact isProper_deliver hjob hlinked _ _
    · exact isProper_deliver hjob hlinked _ _
    · exact isProper_listen hset hlinked _ _
  · split
    · exact isProper_arrive hset hlinked _ _ _
    · exact ⟨hset.job, hset.node⟩

theorem IsProper.go (h : IsProper uid served (t, w))
    (hservable : Servable uid served) (hn : n.Serves uid served)
    (b : Backend W σ) : IsProper uid served (t.step b n w) := by
  -- these jobs are not ended with their node, so the task makes a step of its
  -- own
  have hgoes : (n.manager.isCancelled && t.job.canCancel n) = false := by
    rw [h.job.canCancel, Bool.and_false]
  unfold Task.step
  rw [hgoes]
  cases hstage : t.stage with
  | entering wakeAt fault call => exact isProper_arrive h hn b fault call
  | listening watcher => exact isProper_listen h hn b watcher
  | leaving wakeAt reply => exact isProper_deliver h.job hn reply w
  | idle =>
      cases hcall : t.job.call? n with
      | some call => exact isProper_depart h.job hn b call w
      | none =>
          rcases h.job.step hservable hn b t.node w with ⟨hjob, hnode⟩
          exact isProper_setNode
            (t := { t with job := (t.job.step b t.node n w).1, stage := .idle }) hjob hnode _

theorem isProper_step {s : Scene W σ} (h : s.IsProper uid served)
    (hservable : Servable uid served) (b : Backend W σ) (e : Event W σ) :
    (s.step b e).IsProper uid served := by
  cases e with
  | go =>
      unfold step
      cases hn : s.2.nodes[s.1.node]? with
      | none => exact h
      | some n => exact h.go hservable (h.node n hn) b
  | meanwhile w manager queue link =>
      refine ⟨h.job, ?_⟩
      intro n hn
      simp only [step, Array.getElem?_modify, if_true,
        Option.map_eq_some_iff] at hn
      rcases hn with ⟨before, hbefore, rfl⟩
      exact ⟨(h.node before hbefore).uid, (h.node before hbefore).served⟩

theorem isProper_after {s : Scene W σ} (h : s.IsProper uid served)
    (hservable : Servable uid served) (b : Backend W σ)
    (events : List (Event W σ)) (k : Nat) :
    (s.after b events k).IsProper uid served :=
  stateAt_invariant h (fun _ e hs => isProper_step hs hservable b e) events k

end

end Scene

/-!
# Nodes with a valid configuration
-/

section

variable {c : NodeConfig} {hostname : String}

theorem mem_ofList_served {cidr : String} :
    cidr ∈ (Std.ExtTreeSet.ofList c.served compare : Served) <->
      cidr ∈ c.served := by
  rw [Std.ExtTreeSet.mem_ofList, List.contains_iff_mem]

theorem servable_of_isValid (h : c.IsValid)
    (hhostname : c.hostname = some hostname) :
    Servable hostname (.ofList c.served) where
  uid := by
    rintro rfl
    exact h.hostname hhostname
  served cidr hcidr := h.served cidr (mem_ofList_served.mp hcidr)

/-- A node with a valid configuration and a name of its own can be started, and
then: (1) its manager has the settings of the configuration. (2) The store is
told the configured lifetime, and the renewals come at intervals of whole
milliseconds that are above zero and shorter than that. (3) Everything it serves
has a mask, can be read from its key, and has a key of its own. (4) No attempt
of a job with which it claims what it serves is ever refused for what it asks,
whenever the job is started, on any store and whatever else happens in the
world. -/
theorem validated_node_runs {W σ : Type} (hvalid : c.validate = .ok ())
    (hhostname : c.hostname = some hostname) (hfits : c.ttlMs < wordSize 64)
    (machine : String) :
    (exists m, Manager.new c.settings = .ok m ∧ m.settings = c.settings) ∧
    (c.settings.ttlMs = c.ttlMs ∧
      c.settings.renewInterval = .ofMillis c.renewIntervalMs ∧
      0 < c.renewIntervalMs ∧ c.renewIntervalMs < c.ttlMs) ∧
    (forall cidr, cidr ∈ c.served -> '/' ∈ cidr.toList ∧
      ClaimKey.toCidr c.root (ClaimKey.ofCidr c.root cidr) = .ok cidr ∧
      forall other, other ∈ c.served -> cidr ≠ other ->
        ClaimKey.ofCidr c.root cidr ≠ ClaimKey.ofCidr c.root other) ∧
    forall policy, exists node,
      Node.new policy (c.uid machine) c.served c.settings = .ok node ∧
      (policy = Service.policyOf c.manager ->
        Service.nodeOf machine c = .ok node) ∧
      node.uid = hostname ∧
      (forall cidr, cidr ∈ node.served <-> cidr ∈ c.served) ∧
      forall (later : Node), later.Serves node.uid node.served ->
      forall (b : Backend W σ) (w : World W σ)
        (t : Task W), w.nodes[t.node]? = some later ->
        later.Claims t.job -> forall (events : List (Scene.Event W σ)) (k : Nat)
          (a : Admission),
        (Scene.after b (t, w) events k).1.job.attempt? = some a -> forall e,
        a.result? = some (.error e) -> e.kind ≠ "InvalidClaim" ∧
          e.kind ≠ "InvalidConfig" := by
  have h := NodeConfig.validate_eq_ok_iff.mp hvalid
  have huid : c.uid machine = hostname := by
    rw [NodeConfig.uid, hhostname, Option.getD_some]
  refine ⟨⟨_, h.manager_new, rfl⟩,
    ⟨NodeConfig.ttlMs_settings hfits, rfl, h.renewIntervalMs_pos,
      h.renewIntervalMs_lt⟩, ?_, ?_⟩
  · intro cidr hcidr
    refine ⟨NodeConfig.slash_mem_of_served hcidr, h.toCidr_ofCidr hcidr, ?_⟩
    intro other hother hne heq
    exact hne (h.ofCidr_injective hcidr hother heq)
  · intro policy
    have hnew : Node.new policy (c.uid machine) c.served c.settings =
        .ok ⟨hostname, .ofList c.served, policy, ⟨c.settings, false, .empty⟩,
          .empty, .clear⟩ := by
      rw [Node.new, h.manager_new, huid]
      rfl
    refine ⟨_, hnew, ?_, rfl, fun cidr => mem_ofList_served, ?_⟩
    · rintro rfl
      rw [Service.nodeOf, hnew]
      rfl
    · intro later hlater b w t hnode hclaims events k a ha e he
      have hservable := servable_of_isValid h hhostname
      have hstart : Scene.IsProper hostname (.ofList c.served) (t, w) := by
        refine ⟨hclaims.isProper hservable hlater, ?_⟩
        intro n hn
        rw [hnode] at hn
        cases hn
        exact hlater
      have hproper :=
        (Scene.isProper_after hstart hservable b events k).job.attempt? ha
      exact ClaimError.kind_of_not_isRefusal (hproper.not_isRefusal he)

def addressConfig : NodeConfig :=
  { NodeConfig.default with
    manager := .fair, store := .memory, hostname := some "a",
    cidrs := ["10.0.0.2"] }

def strayStore : MemoryStore :=
  (MemoryStore.empty.write 0 (.set "/ipclaim/" "b")).2

def addressNode : Node :=
  ⟨"a", .ofList ["10.0.0.2/32"], .fair, ⟨addressConfig.settings, false, .empty⟩,
    .empty, .clear⟩

/-- The first pass of the node over a store with the stray key. -/
def strayPass : Scene Watcher MemoryStore :=
  (⟨0, 0, World.passJob addressNode, .idle⟩, World.start strayStore
    [addressNode])

theorem validated_node_runs_addressConfig :
    addressConfig.served = ["10.0.0.2/32"] ∧
    addressConfig.settings.ttlMs = 10000 ∧
      exists a e, (strayPass.after memoryBackend [.go, .go] 2).1.job.attempt? =
        some a ∧
        a.result? = some (.error e) ∧ e.kind = "CorruptedKey" ∧
          e.kind ≠ "InvalidClaim" := by
  rcases validated_node_runs (W := Watcher) (σ := MemoryStore) (c :=
    addressConfig) rfl rfl (by decide) "host" with ⟨_, ⟨httl, _⟩, _, hruns⟩
  rcases hruns .fair with ⟨node, hnew, _, _, _, hnever⟩
  have hnode : node = addressNode := (Except.ok.inj hnew).symm
  subst hnode
  have hended : (strayPass.after memoryBackend [.go, .go] 2).1.job.attempt?.bind
      (·.result?) =
      some (.error (.corruptedKey "/ipclaim/" "/ipclaim/")) := by
    decide +kernel
  rcases Option.bind_eq_some_iff.mp hended with ⟨a, ha, he⟩
  exact ⟨by decide, httl, a, _, ha, he, rfl,
    (hnever addressNode ⟨rfl, rfl⟩ memoryBackend _ _ rfl .pass [.go,
      .go] 2 a ha _ he).left⟩

end

end Simulation
end FairLease
