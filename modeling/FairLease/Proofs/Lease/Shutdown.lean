import FairLease.Proofs.Lease.Exclusive

/-!
# Shutdown

A shutdown cancels the manager, empties the registry and waits for the renewals
it found there. Nothing is started after the cancellation, and whatever went on
at that time was in the registry, so that nothing goes on when the wait is over.
-/

namespace FairLease

namespace Manager

/-!
# After a cancellation
-/

theorem isCancelled_step_of_isCancelled {m : Manager} (h : m.isCancelled = true)
    (e : Event) :
    (m.step e).isCancelled = true := by
  rcases isCancelled_step m e with hsame | hcancelled
  · rw [hsame, h]
  · exact hcancelled

theorem size_step_of_isCancelled {m : Manager} (h : m.isCancelled = true)
    (e : Event) :
    (m.step e).registry.renewals.size = m.registry.renewals.size := by
  rcases m.step_cases e with
    hstep | ⟨id, f, hstep, _⟩ | ⟨_, _, _, hcancelled, _⟩ | ⟨id, r, _, _, _,
      hstep⟩ | ⟨_, _, hstep⟩
  · rw [hstep]
  · rw [hstep]
    simp [Registry.update]
  · rw [h] at hcancelled
    cases hcancelled
  · rw [hstep]
    simp [Registry.abandon, Registry.update]
  · rw [hstep]

theorem holder?_step_of_isCancelled {m : Manager} (h : m.isCancelled = true)
    {key : String} (hnone : m.holder? key = none) (e : Event) :
    (m.step e).holder? key = none := by
  rcases holder?_step_cases m e key with
    hsame | ⟨_, _, _, hcancelled, _⟩ | ⟨_, _, _, _, _, _, _,
      hgone⟩ | ⟨_, _, hgone⟩
  · rw [hsame, hnone]
  · rw [h] at hcancelled
    cases hcancelled
  · exact hgone
  · exact hgone

theorem step_ensure_of_isCancelled {m : Manager} (h : m.isCancelled = true)
    (now : Nat) (lease : Lease) : m.step (.ensure now lease) = m := by
  rcases m with ⟨settings, isCancelled, registry⟩
  simp only at h
  subst h
  rfl

theorem lt_size_iff {m : Manager} {id : Nat} :
    id < m.registry.renewals.size <-> exists r, m.renewal? id = some r := by
  constructor
  · intro hlt
    exact ⟨_, Array.getElem?_eq_getElem hlt⟩
  · rintro ⟨r, hr⟩
    rcases Array.getElem?_eq_some_iff.mp hr with ⟨hlt, _⟩
    exact hlt

theorem mem_shutDown_iff {m : Manager} {id : Nat} :
    id ∈ m.shutDown.1 <-> exists key, m.holder? key = some id := by
  simp [shutDown, Registry.drain, holder?,
    Std.ExtTreeMap.mem_toList_iff_getElem?_eq_some]

theorem active_eq_zero {m : Manager} (h : forall key, m.holder? key = none) :
    m.registry.active = 0 := by
  rw [Registry.active, List.length_eq_zero_iff, List.filter_eq_nil_iff]
  intro p hp
  have hentry := Std.ExtTreeMap.mem_toList_iff_getElem?_eq_some.mp hp
  have hnone := h p.1
  rw [holder?, hentry] at hnone
  cases hnone

/-!
# Quiet managers
-/

/-- The manager is cancelled, its registry is empty, and no renewal goes on. -/
structure IsQuiet (m : Manager) : Prop where
  cancelled : m.isCancelled = true
  empty : forall key, m.holder? key = none
  settled : forall id, ¬ m.IsActive id

theorem isQuiet_step {m : Manager} (hm : m.IsQuiet) (e : Event) :
    (m.step e).IsQuiet where
  cancelled := isCancelled_step_of_isCancelled hm.cancelled e
  empty := fun key => holder?_step_of_isCancelled hm.cancelled (hm.empty key) e
  settled := by
    intro id hactive
    have hknown := hactive
    rcases hknown with ⟨r', hr', _⟩
    rcases step_renewal_cases hr' with ⟨r, hr, _⟩ | ⟨_, _, _, hcancelled, _⟩
    · exact hm.settled id (isActive_before hr hactive)
    · rw [hm.cancelled] at hcancelled
      cases hcancelled

theorem IsQuiet.phase {m : Manager} (hm : m.IsQuiet) {id : Nat} {r : Renewal}
    (hr : m.renewal? id = some r) : r.phase = .released ∨ r.phase = .ended := by
  by_cases hreleased : r.phase = .released
  · exact Or.inl hreleased
  · exact Or.inr (Decidable.byContradiction fun hended =>
      hm.settled id ⟨r, hr, hreleased, hended⟩)

theorem IsQuiet.call?_eq_none {W : Type} {node : Simulation.Node}
    (hm : node.manager.IsQuiet) (id : Nat) :
    (Simulation.Job.renewal id : Simulation.Job W).call? node = none := by
  cases hcall : (Simulation.Job.renewal id : Simulation.Job W).call? node with
  | none => rfl
  | some call => exact absurd (isActive_of_call? hcall) (hm.settled id)

end Manager

namespace Office

/-!
# Shutdowns that return
-/

/-- The first shutdown cancels the manager at the step `c`, empties the registry
at `d`, and returns by the step `n`, when all renewals that it found have
ended. -/
structure ShutsDown (start : Office) (steps : List Event) (c d n : Nat) :
    Prop where
  cancels : steps[c]? = some (.manage .cancel)
  drains : steps[d]? = some (.manage .drain)
  order : c < d ∧ d < n
  first : forall k, k < d -> steps[k]? ≠ some (.manage .drain)
  awaited : forall id, id ∈ (start.after steps d).manager.shutDown.1 ->
    (start.after steps n).manager.phase? id = some .ended

section

variable {start : Office} {steps : List Event}

theorem isCancelled_after {m n : Nat} (hmn : m ≤ n)
    (h : (start.after steps m).manager.isCancelled = true) :
    (start.after steps n).manager.isCancelled = true :=
  manager_keeps (P := fun s => s.isCancelled = true)
    (fun _ e hs => Manager.isCancelled_step_of_isCancelled hs e) hmn h

theorem size_after_of_isCancelled {m n : Nat} (hmn : m ≤ n)
    (h : (start.after steps m).manager.isCancelled = true) :
    (start.after steps n).manager.registry.renewals.size =
      (start.after steps m).manager.registry.renewals.size := by
  have hboth := manager_keeps
    (P := fun s => s.isCancelled = true ∧
      s.registry.renewals.size =
        (start.after steps m).manager.registry.renewals.size)
    (fun _ e hs => ⟨Manager.isCancelled_step_of_isCancelled hs.left e,
      (Manager.size_step_of_isCancelled hs.left e).trans hs.right⟩) hmn ⟨h, rfl⟩
  exact hboth.right

theorem isQuiet_after {m n : Nat} (hmn : m ≤ n)
    (h : (start.after steps m).manager.IsQuiet) :
    (start.after steps n).manager.IsQuiet :=
  manager_keeps (P :=
    Manager.IsQuiet) (fun _ e hs => Manager.isQuiet_step hs e) hmn h

theorem ShutsDown.isCancelled {c d n k : Nat} (h : ShutsDown start steps c d n)
    (hk : c < k) :
    (start.after steps k).manager.isCancelled = true := by
  apply isCancelled_after hk
  rw [after_succ h.cancels]
  rfl

theorem ShutsDown.holder? {c d n k : Nat} (h : ShutsDown start steps c d n)
    (hk : d < k) (key : String) :
    (start.after steps k).manager.holder? key = none := by
  have hcancelled := h.isCancelled h.order.left
  have hempty : (start.after steps (d + 1)).manager.holder? key = none := by
    rw [after_succ h.drains, Manager.holder?]
    simp [step, Manager.step, hcancelled, Manager.shutDown, Registry.drain]
  have hboth :=
    manager_keeps (P := fun s => s.isCancelled = true ∧ s.holder? key = none)
    (fun _ e hs => ⟨Manager.isCancelled_step_of_isCancelled hs.left e,
      Manager.holder?_step_of_isCancelled hs.left hs.right e⟩) hk
    ⟨h.isCancelled (Nat.lt_succ_of_lt h.order.left), hempty⟩
  exact hboth.right

/-- What goes on when the registry is emptied is in it, and has ended when the
shutdown returns. -/
theorem ShutsDown.isQuiet (hstart : start.manager.registry = .empty)
    {c d n : Nat} (h : ShutsDown start steps c d n) :
    (start.after steps n).manager.IsQuiet where
  cancelled := h.isCancelled (Nat.lt_trans h.order.left h.order.right)
  empty := h.holder? h.order.right
  settled := by
    intro id hactive
    have hdn := Nat.le_of_lt h.order.right
    have hknown := hactive
    rcases hknown with ⟨r', hr', hphase⟩
    have hsize := size_after_of_isCancelled hdn (h.isCancelled h.order.left)
    have hlt : id < (start.after steps d).manager.registry.renewals.size := by
      rw [← hsize]
      exact Manager.lt_size_iff.mpr ⟨r', hr'⟩
    rcases Manager.lt_size_iff.mp hlt with ⟨r, hr⟩
    have hactive' := isActive_earlier hdn hr hactive
    rw [Manager.isActive_iff hr] at hactive'
    have hkept : ¬ DrainedBefore start steps d := by
      rintro ⟨k, hk, hdrain, _⟩
      exact h.first k hk hdrain
    have hentry :=
      ownsEntries_after hstart hkept id r hr hactive'.left hactive'.right
    have hended :=
      h.awaited id (Manager.mem_shutDown_iff.mpr ⟨r.lease.key, hentry⟩)
    rcases Manager.phase?_eq_some_iff.mp hended with ⟨s, hs, hover⟩
    rw [hr'] at hs
    cases hs
    exact hphase.right hover

/-!
# Calls that have returned
-/

theorem calls_step_of_finished {o : Office} {j : Nat} {a : Admission}
    {result : Except ClaimError Bool} (ha : o.calls[j]? = some a)
    (hphase : a.phase = .finished result) (e : Event) :
    (o.step e).calls[j]? = some a := by
  have hmodify (k : Nat) (f : Admission -> Admission) (hf : f a = a) :
      (o.setCall k f).calls[j]? = some a := by
    simp only [setCall, Array.getElem?_modify]
    split
    · simp [ha, hf]
    · exact ha
  cases e with
  | begin uid cidr =>
      have hj : j ≠ o.calls.size := by
        rintro rfl
        simp at ha
      simp only [step, Array.getElem?_push, if_neg hj]
      exact ha
  | listed k page => exact hmodify k _ (by simp [Admission.listed, hphase])
  | created k result => exact hmodify k _ (by simp [Admission.created, hphase])
  | register k now =>
      rcases o.step_register_cases k now with hsame | ⟨b, _, _, hstep⟩
      · rw [hsame]
        exact ha
      · rw [hstep]
        exact hmodify k _ (by simp [Admission.registered, hphase])
  | manage => exact ha

theorem calls_after_of_finished {m n j : Nat} {a : Admission}
    {result : Except ClaimError Bool} (hmn : m ≤ n)
    (ha : (start.after steps m).calls[j]? = some a)
    (hphase : a.phase = .finished result) :
    (start.after steps n).calls[j]? = some a :=
  stateAt_related
    (R := fun o p : Office => o.calls[j]? = some a -> p.calls[j]? = some a)
    (fun _ ho => ho) (fun hop hpq ho => hpq (hop ho))
    (fun _ e ho => calls_step_of_finished ho hphase e) start steps hmn ha

theorem attempt_of_isCancelled {m : Manager} (h : m.isCancelled = true)
    {uid cidr : String}
    (huid : uid ≠ "") (hcidr : ClaimKey.defect? cidr = none) :
    m.attempt uid cidr = ⟨uid, cidr, .finished (.error .shutDown)⟩ := by
  simp [Manager.attempt, Admission.start, Admission.entryError?, h, huid, hcidr]

theorem callOfAdmission?_of_finished {W : Type} {a : Admission}
    {result : Except ClaimError Bool} (h : a.phase = .finished result)
    (node : Simulation.Node) :
    (Simulation.callOfAdmission? node a : Option (Simulation.StoreCall W)) =
      none := by
  simp [Simulation.callOfAdmission?, h]

end

/-!
# Shutdown as a whole
-/

/-- In every run of a manager that starts without renewals, whatever its callers
ask for and the store answers: (1) from the return of the first shutdown on,
each renewal has ended or is about to after giving up its claim, none is counted
as active, none asks the store, and none is started; (2) nothing at all is
started after the cancellation; (3) a call that begins after it fails without
asking the store; (4) a call that has its renewal ensured after it returns, but
starts none. -/
theorem shutdown_is_quiet (start : Office) (steps : List Event)
    (hstart : start.manager.registry = .empty) :
    (forall c d n m, ShutsDown start steps c d n -> n ≤ m ->
      (forall id r, (start.after steps m).manager.renewal? id = some r ->
        r.phase = .released ∨ r.phase = .ended) ∧
      (start.after steps m).manager.registry.active = 0 ∧
      (start.after steps m).manager.registry.renewals.size =
        (start.after steps n).manager.registry.renewals.size ∧
      forall (W : Type) (node : Simulation.Node) id,
        node.manager = (start.after steps m).manager ->
        (Simulation.Job.renewal id : Simulation.Job W).call? node = none) ∧
    (forall m n, m ≤ n -> (start.after steps m).manager.isCancelled = true ->
      (start.after steps n).manager.registry.renewals.size =
        (start.after steps m).manager.registry.renewals.size) ∧
    (forall m n uid cidr, steps[m]? = some (.begin uid cidr) -> m < n ->
      (start.after steps m).manager.isCancelled = true ->
      uid ≠ "" -> ClaimKey.defect? cidr = none ->
      (start.after steps n).calls[(start.after steps m).calls.size]? =
        some ⟨uid, cidr, .finished (.error .shutDown)⟩ ∧
      forall (W : Type) (node : Simulation.Node),
        (Simulation.callOfAdmission? node ⟨uid, cidr,
          .finished (.error .shutDown)⟩ :
          Option (Simulation.StoreCall W)) = none) ∧
    (forall n j now a, steps[n]? = some (.register j now) ->
      (start.after steps n).manager.isCancelled = true ->
      (start.after steps n).calls[j]? = some a -> a.phase = .registering ->
      (start.after steps (n + 1)).manager = (start.after steps n).manager ∧
      (start.after steps (n + 1)).calls[j]? =
        some ⟨a.uid, a.cidr, .finished (.ok true)⟩) := by
  refine ⟨?_, ?_, ?_, ?_⟩
  · intro c d n m hshuts hnm
    have hquiet := isQuiet_after hnm (hshuts.isQuiet hstart)
    refine ⟨fun id r hr => hquiet.phase hr,
      Manager.active_eq_zero hquiet.empty, ?_, ?_⟩
    · exact size_after_of_isCancelled hnm (hshuts.isQuiet hstart).cancelled
    · intro W node id hnode
      rw [← hnode] at hquiet
      exact hquiet.call?_eq_none id
  · intro m n hmn hcancelled
    exact size_after_of_isCancelled hmn hcancelled
  · intro m n uid cidr hbegin hmn hcancelled huid hcidr
    refine ⟨calls_after_of_finished hmn ?_ rfl,
      fun W node => callOfAdmission?_of_finished rfl node⟩
    rw [after_succ hbegin, ← attempt_of_isCancelled hcancelled huid hcidr]
    simp [step]
  · intro n j now a hregister hcancelled ha hphase
    rw [after_succ hregister, step_register_of_registering ha hphase]
    refine ⟨?_, ?_⟩
    · rw [register_eq_step, Manager.step_ensure_of_isCancelled hcancelled]
    · simp [setCall, Array.getElem?_modify, ha, Admission.registered, hphase]

def emptyPage : ScanResult :=
  .ofListing 1000 []

def created : WriteResult :=
  { command := none, revision := some 1, prevValue := none }

/-- One claim is renewed and another one is about to be created when the manager
is cancelled. -/
def quittingSteps : List Event :=
  [.begin "a" "x", .listed 0 (.ok emptyPage), .created 0 (.ok created),
    .register 0 0, .begin "b" "y", .listed 1 (.ok emptyPage), .manage .cancel,
    .created 1 (.ok created), .manage .drain, .register 1 0, .begin "a" "z",
    .manage (.stop 0)]

def Event.isDrain : Event -> Bool
  | .manage .drain => true
  | _ => false

theorem shutdown_is_quiet_quittingSteps :
    ShutsDown soleOffice quittingSteps 6 8 12 ∧
      (soleOffice.after quittingSteps 12).manager.registry.active = 0 ∧
      (soleOffice.after quittingSteps 12).manager.registry.renewals.size = 1 ∧
      (soleOffice.after quittingSteps 12).calls[2]? =
        some ⟨"a", "z", .finished (.error .shutDown)⟩ ∧
      (soleOffice.after quittingSteps 10).calls[1]? =
        some ⟨"b", "y", .finished (.ok true)⟩ ∧
      (soleOffice.after quittingSteps 10).manager =
        (soleOffice.after quittingSteps 9).manager := by
  have hshuts : ShutsDown soleOffice quittingSteps 6 8 12 := by
    refine ⟨rfl, rfl, ⟨by decide, by decide⟩, ?_, ?_⟩
    · intro k hk hdrain
      have hnone : forall k, k < 8 ->
          quittingSteps[k]?.map Event.isDrain ≠ some true := by decide
      exact hnone k hk (by rw [hdrain]; rfl)
    · decide
  rcases shutdown_is_quiet soleOffice quittingSteps rfl with
    ⟨hquiet, hfrozen, hrefused, hlate⟩
  have hrenewals := hfrozen 7 12 (by decide) rfl
  have hcall :=
    hrefused 10 12 "a" "z" rfl (by decide) rfl (by decide) (by decide)
  have hregister := hlate 9 1 0 ⟨"b", "y", .registering⟩ rfl rfl rfl rfl
  exact ⟨hshuts, (hquiet 6 8 12 12 hshuts (Nat.le_refl _)).right.left,
    hrenewals, hcall.left, hregister.right, hregister.left⟩

end Office
end FairLease
