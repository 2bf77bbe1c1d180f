import FairLease.Proofs.Lease.Office

/-!
# One renewal for each key

Callers make entries, renewals remove their own, and a shutdown removes all of
them. A renewal is started only where no entry leads to one that goes on, so
that no two renewals of a key can ever ask the store about it.
-/

namespace FairLease

namespace Manager

/-!
# Renewals that go on

A renewal that has given up or ended does not come back, so the renewals of a
key that go on are those that did before, or a new one.
-/

def IsExclusive (m : Manager) : Prop :=
  forall id id' r r', m.renewal? id = some r -> m.renewal? id' = some r' ->
    r.lease.key = r'.lease.key -> m.IsActive id -> m.IsActive id' -> id = id'

theorem isActive_iff {m : Manager} {id : Nat} {r : Renewal}
    (hr : m.renewal? id = some r) :
    m.IsActive id <-> r.phase ≠ .released ∧ r.phase ≠ .ended := by
  constructor
  · rintro ⟨s, hs, hlive⟩
    rw [hr] at hs
    cases hs
    exact hlive
  · intro hlive
    exact ⟨r, hr, hlive⟩

theorem isActive_before {m : Manager} {e : Event} {id : Nat} {r : Renewal}
    (hr : m.renewal? id = some r) (h : (m.step e).IsActive id) :
    m.IsActive id := by
  rcases h with ⟨r', hr', hreleased, hended⟩
  rcases step_renewal e hr with ⟨s, hs, hmove⟩
  rw [hr'] at hs
  cases hs
  rw [isActive_iff hr]
  cases hmove with
  | stay => exact ⟨hreleased, hended⟩
  | touched => exact ⟨hreleased, hended⟩
  | finished => exact absurd rfl hended
  | stopped => exact absurd rfl hended
  | released => exact absurd rfl hreleased
  | ticked hphase | answered hphase | doubted hphase | undecided hphase
  | confirmed hphase | lost hphase | kept hphase => simp [hphase]

theorem running?_of_isActive {m : Manager} (hm : m.OwnsEntries) {id : Nat}
    {r : Renewal} (hr : m.renewal? id = some r) (h : m.IsActive id) :
    m.registry.running? r.lease.key = some id := by
  rw [isActive_iff hr] at h
  exact Registry.running?_eq_some_iff.mpr ⟨hm id r hr h.left h.right, r,
    hr, h.right⟩

theorem isExclusive_of_empty {m : Manager} (h : m.registry = .empty) :
    m.IsExclusive := by
  intro id id' r r' hr
  rw [renewal?, h] at hr
  simp [Registry.empty, Registry.renewal?] at hr

theorem isExclusive_step {m : Manager} (hwell : m.WellFormed)
    (hm : m.IsExclusive) (e : Event) :
    (m.step e).IsExclusive := by
  -- a new renewal meets none of its key that goes on
  have hnew {now : Nat} {lease : Lease} {id : Nat} {r : Renewal}
      (hcancelled : m.isCancelled = false)
      (hrunning : m.registry.running? lease.key = none)
      (hr : m.renewal? id = some r)
      (hkey : r.lease.key = lease.key) :
        ¬ (m.step (.ensure now lease)).IsActive id := by
    intro hactive
    have hfound :=
      running?_of_isActive (hwell.owner hcancelled) hr
        (isActive_before hr hactive)
    rw [hkey, hrunning] at hfound
    cases hfound
  intro id id' s s' hs hs' hkey hactive hactive'
  rcases step_renewal_cases hs with
    ⟨r, hr, hmove⟩ | ⟨now, lease, rfl, hcancelled, hrunning, hid, rfl⟩
  · rcases step_renewal_cases hs' with
      ⟨r', hr', hmove'⟩ | ⟨now, lease, rfl, hc, hrunning, _, rfl⟩
    · rw [hmove.lease_eq, hmove'.lease_eq] at hkey
      exact hm id id' r r' hr hr' hkey (isActive_before hr hactive)
        (isActive_before hr' hactive')
    · rw [hmove.lease_eq] at hkey
      exact absurd hactive (hnew hc hrunning hr hkey)
  · rcases step_renewal_cases hs' with
      ⟨r', hr', hmove'⟩ | ⟨_, _, _, _, _, hid', _⟩
    · rw [hmove'.lease_eq] at hkey
      exact absurd hactive' (hnew hcancelled hrunning hr' hkey.symm)
    · rw [hid, hid']

theorem holder?_release_of_ne {m : Manager} {id id' : Nat} {key : String}
    (h : m.holder? key = some id') (hne : id' ≠ id) :
    (m.step (.release id)).holder? key = some id' := by
  rcases m.registry.release_cases id with
    ⟨hsame, _⟩ | ⟨r, seen, _, _, ⟨_, hkept⟩ | ⟨_, hgone⟩⟩
  · rw [holder?, step, hsame]
    exact h
  · rw [holder?, step, hkept, Registry.entries_update]
    exact h
  · rw [holder?, step, hgone, Registry.entries_abandon]
    split
    · rename_i hown
      rw [holder?, ← hown.left, hown.right] at h
      exact absurd (Option.some.inj h).symm hne
    · exact h

theorem isActive_of_call? {W : Type} {node : Simulation.Node} {id : Nat}
    {call : Simulation.StoreCall W}
    (h : (Simulation.Job.renewal id : Simulation.Job W).call? node =
      some call) :
    node.manager.IsActive id := by
  unfold Simulation.Job.call? at h
  cases hr : node.manager.registry.renewal? id with
  | none => simp [hr] at h
  | some r =>
      refine ⟨r, hr, ?_⟩
      cases hphase : r.phase with
      | swapping | rereading seen => simp
      | _ => simp [hr, hphase] at h

end Manager

/-!
# Runs of an office
-/

namespace Office

section

variable {start : Office} {steps : List Event}

def DrainedBefore (start : Office) (steps : List Event) (n : Nat) : Prop :=
  exists k, k < n ∧ steps[k]? = some (.manage .drain) ∧
    (start.after steps k).manager.isCancelled = true

theorem isExclusive_after (hstart : start.manager.registry = .empty) (n : Nat) :
    (start.after steps n).manager.IsExclusive := by
  have hboth : (start.after steps n).manager.WellFormed ∧
      (start.after steps n).manager.IsExclusive :=
    manager_keeps (P := fun m => m.WellFormed ∧ m.IsExclusive)
      (fun _ e hm => ⟨Manager.wellFormed_step hm.left e,
        Manager.isExclusive_step hm.left hm.right e⟩) (Nat.zero_le n)
      ⟨Manager.wellFormed_of_empty hstart, Manager.isExclusive_of_empty hstart⟩
  exact hboth.right

/-- Until a shutdown empties the registry, each renewal that goes on is in
it. -/
theorem ownsEntries_after (hstart : start.manager.registry = .empty) {n : Nat}
    (h : ¬ DrainedBefore start steps n) :
    (start.after steps n).manager.OwnsEntries := by
  induction n with
  | zero => exact Manager.ownsEntries_of_empty hstart
  | succ n ih =>
      have hbefore : (start.after steps n).manager.OwnsEntries := by
        apply ih
        rintro ⟨k, hk, hdrain⟩
        exact h ⟨k, Nat.lt_succ_of_lt hk, hdrain⟩
      rcases after_cases start steps n with ⟨_, hsame⟩ | ⟨e, he, hstep⟩
      · rw [hsame]
        exact hbefore
      · rw [hstep]
        rcases (start.after steps n).manager_step_cases e with
          hsame | ⟨e', he', hcause⟩
        · rw [hsame]
          exact hbefore
        · rw [he']
          apply Manager.ownsEntries_step hbefore
          rintro rfl
          rcases hcause with rfl | ⟨_, _, hensure⟩
          · cases hcancelled : (start.after steps n).manager.isCancelled with
            | false => rfl
            | true => exact absurd ⟨n, Nat.lt_succ_self n, he, hcancelled⟩ h
          · cases hensure

theorem isActive_earlier {m n id : Nat} {r : Renewal} (hmn : m ≤ n)
    (hr : (start.after steps m).manager.renewal? id = some r)
    (h : (start.after steps n).manager.IsActive id) :
    (start.after steps m).manager.IsActive id := by
  have hboth : (start.after steps n).manager.renewal? id ≠ none ∧
      ((start.after steps n).manager.IsActive id ->
        (start.after steps m).manager.IsActive id) := by
    refine manager_keeps
      (P := fun s => s.renewal? id ≠ none ∧
        (s.IsActive id -> (start.after steps m).manager.IsActive id)) ?_ hmn
      ⟨by rw [hr]; simp, fun hactive => hactive⟩
    intro s e hs
    rcases Option.ne_none_iff_exists'.mp hs.left with ⟨r, hr⟩
    rcases Manager.step_renewal e hr with ⟨r', hr', _⟩
    exact ⟨by rw [hr']; simp,
      fun hactive => hs.right (Manager.isActive_before hr hactive)⟩
  exact hboth.right h

end

/-!
# Exclusiveness as a whole
-/

/-- In every run of a manager that starts without renewals, whatever its callers
ask for and the store answers: (1) at most one renewal of a key goes on, and (2)
it has the entry of the key until a shutdown empties the registry; (3) a renewal
that gives up its claim removes no entry but its own; (4) a renewal that asks
the store has gone on at every moment since it was started. -/
theorem renewals_are_exclusive (start : Office) (steps : List Event)
    (hstart : start.manager.registry = .empty) :
    (forall n, (start.after steps n).manager.IsExclusive) ∧
    (forall n, ¬ DrainedBefore start steps n ->
      (start.after steps n).manager.OwnsEntries) ∧
    (forall n id id' key, steps[n]? = some (.manage (.release id)) ->
      (start.after steps n).manager.holder? key = some id' -> id' ≠ id ->
      (start.after steps (n + 1)).manager.holder? key = some id') ∧
    (forall (W : Type)
      (node : Simulation.Node) m n id r (call : Simulation.StoreCall W),
      m ≤ n ->
      (start.after steps m).manager.renewal? id = some r ->
      node.manager = (start.after steps n).manager ->
      (Simulation.Job.renewal id : Simulation.Job W).call? node = some call ->
      (start.after steps m).manager.IsActive id) := by
  refine ⟨?_, ?_, ?_, ?_⟩
  · intro n
    exact isExclusive_after hstart n
  · intro n hkept
    exact ownsEntries_after hstart hkept
  · intro n id id' key hstep hholder hne
    rw [after_succ hstep]
    exact Manager.holder?_release_of_ne hholder hne
  · intro W node m n id r call hmn hr hnode hcall
    have hactive := Manager.isActive_of_call? hcall
    rw [hnode] at hactive
    exact isActive_earlier hmn hr hactive

def soleOffice : Office :=
  { manager := Manager.soleManager, calls := #[] }

/-- A claim is asked for again after its renewal has given up and before it has
ended. -/
def relievingSteps : List Event :=
  [.manage (.ensure 0 Manager.soleLease), .manage (.tick 0 100000000),
    .manage (.swapped 0 (.error (.compareFailed "/ipclaim/x" (some "a") none))),
    .manage (.reread 0 (.ok ⟨none⟩)), .manage (.release 0),
    .manage (.ensure 100000000 Manager.soleLease)]

theorem renewals_are_exclusive_relievingSteps :
    (soleOffice.after relievingSteps 6).manager.phase? 0 = some .released ∧
      (soleOffice.after relievingSteps 6).manager.IsExclusive ∧
      (soleOffice.after relievingSteps 6).manager.OwnsEntries ∧
      (soleOffice.after relievingSteps 6).manager.holder? "/ipclaim/x" =
        some 1 := by
  rcases renewals_are_exclusive soleOffice relievingSteps rfl with
    ⟨hone, howner, _, _⟩
  have hkept : ¬ DrainedBefore soleOffice relievingSteps 6 := by
    rintro ⟨k, hk, _, hcancelled⟩
    have hnever : forall k, k < 6 ->
        (soleOffice.after relievingSteps k).manager.isCancelled = false := by
          decide
    rw [hnever k hk] at hcancelled
    cases hcancelled
  exact ⟨by decide, hone 6, howner 6 hkept, by decide⟩

end Office
end FairLease
