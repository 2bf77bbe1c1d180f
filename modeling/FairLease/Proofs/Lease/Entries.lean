import FairLease.Proofs.Lease.Machine

/-!
# Renewals and their entries

A renewal that has not given up owns the entry of its key until the manager is
cancelled. This is why the one renewal that an entry names is the only one that
can be running for its key.
-/

namespace FairLease
namespace Manager

def renewal? (m : Manager) (id : Nat) : Option Renewal :=
  m.registry.renewal? id

def holder? (m : Manager) (key : String) : Option Nat :=
  m.registry.entries[key]?

/-!
# Single renewals and single entries

A step is seen from one renewal as a move or as its beginning. An entry is made
with its renewal and unmade when that renewal is released, or by the shutdown.
-/

theorem renewal?_size (m : Manager) :
    m.renewal? m.registry.renewals.size = none :=
  Array.getElem?_eq_none (Nat.le_refl _)

theorem step_renewal {m : Manager} {id : Nat} {r : Renewal} (e : Event)
    (h : m.renewal? id = some r) :
    exists r', (m.step e).renewal? id = some r' ∧ Renewal.Move m id e r r' := by
  have hid : id ≠ m.registry.renewals.size := by
    intro heq
    rw [heq, renewal?_size] at h
    cases h
  unfold renewal? at *
  rcases m.step_cases e with
    hstep | ⟨i, f, hstep, hmove⟩ | ⟨now, lease, _, _, _, hstep⟩ |
      ⟨i, s, rfl, hs, hphase, hstep⟩ | ⟨_, _, hstep⟩
  · exact ⟨r, by rw [hstep, h], Renewal.Move.stay e r⟩
  · rw [hstep, Registry.renewal?_update]
    by_cases hi : i = id
    · subst hi
      exact ⟨f r, by simp [h], hmove r h⟩
    · exact ⟨r, by simp [hi, h], Renewal.Move.stay e r⟩
  · exact ⟨r, by rw [hstep, Registry.renewal?_begin, if_neg hid, h],
      Renewal.Move.stay e r⟩
  · rw [hstep, Registry.renewal?_abandon]
    by_cases hi : i = id
    · subst hi
      rw [h] at hs
      cases hs
      exact ⟨r.enter .released, by simp [h], Renewal.Move.released hphase⟩
    · exact ⟨r, by simp [hi, h], Renewal.Move.stay _ r⟩
  · exact ⟨r, by rw [hstep]; exact h, Renewal.Move.stay e r⟩

theorem step_renewal_cases {m : Manager} {id : Nat} {r' : Renewal} {e : Event}
    (h : (m.step e).renewal? id = some r') :
    (exists r, m.renewal? id = some r ∧ Renewal.Move m id e r r') ∨
      exists now lease, e = .ensure now lease ∧ m.isCancelled = false ∧
        m.registry.running? lease.key = none ∧ id = m.registry.renewals.size ∧
        r' = .start now lease := by
  cases hr : m.renewal? id with
  | some r =>
      rcases step_renewal e hr with ⟨r'', hr'', hmove⟩
      rw [h] at hr''
      cases hr''
      exact Or.inl ⟨r, rfl, hmove⟩
  | none =>
      unfold renewal? at *
      rcases m.step_cases e with
        hstep | ⟨i, f, hstep, _⟩ | ⟨now, lease, he, hcancelled,
          hrunning, hstep⟩ |
          ⟨i, s, _, _, _, hstep⟩ | ⟨_, _, hstep⟩
      · rw [hstep, hr] at h
        cases h
      · rw [hstep, Registry.renewal?_update] at h
        simp [hr] at h
      · rw [hstep, Registry.renewal?_begin] at h
        split at h
        · rename_i hid
          exact Or.inr ⟨now, lease, he, hcancelled, hrunning, hid,
            (Option.some.inj h).symm⟩
        · rw [hr] at h
          cases h
      · rw [hstep, Registry.renewal?_abandon] at h
        simp [hr] at h
      · rw [hstep] at h
        change m.registry.renewal? id = some r' at h
        rw [hr] at h
        cases h

theorem holder?_step_cases (m : Manager) (e : Event) (key : String) :
    (m.step e).holder? key = m.holder? key ∨
      (exists now lease, e = .ensure now lease ∧ m.isCancelled = false ∧
        m.registry.running? lease.key = none ∧ lease.key = key ∧
        (m.step e).registry = m.registry.begin now lease) ∨
      (exists id r, e = .release id ∧ m.renewal? id = some r ∧
        r.phase = .releasing r.touches ∧ r.lease.key = key ∧
        m.holder? key = some id ∧
        (m.step e).holder? key = none) ∨
      (e = .drain ∧ m.isCancelled = true ∧ (m.step e).holder? key = none) := by
  unfold renewal? holder?
  rcases m.step_cases e with
    hstep | ⟨i, f, hstep, _⟩ | ⟨now, lease, he, hcancelled, hrunning, hstep⟩ |
      ⟨i, r, he, hr, hphase, hstep⟩ | ⟨he, hcancelled, hstep⟩
  · exact Or.inl (by rw [hstep])
  · exact Or.inl (by rw [hstep, Registry.entries_update])
  · by_cases hkey : lease.key = key
    · exact Or.inr (Or.inl ⟨now, lease, he, hcancelled, hrunning, hkey, hstep⟩)
    · exact Or.inl (by rw [hstep, Registry.entries_begin, if_neg hkey])
  · by_cases howned : r.lease.key = key ∧
      m.registry.entries[r.lease.key]? = some i
    · have hentry : m.registry.entries[key]? = some i := by
        rw [← howned.left]
        exact howned.right
      refine Or.inr (Or.inr
        (Or.inl ⟨i, r, he, hr, hphase, howned.left, hentry, ?_⟩))
      rw [hstep, Registry.entries_abandon, if_pos howned]
    · exact Or.inl (by rw [hstep, Registry.entries_abandon, if_neg howned])
  · exact Or.inr (Or.inr (Or.inr ⟨he, hcancelled, by rw [hstep]; simp⟩))

theorem step_release_of_releasing
    {m : Manager} {id : Nat} {r : Renewal}
    (hr : m.renewal? id = some r) (hphase : r.phase = .releasing r.touches) :
    (m.step (.release id)).registry = m.registry.abandon id r.lease.key := by
  rcases m.registry.release_cases id with ⟨_, hnone⟩ | ⟨s, seen, hs, hseen, h⟩
  · exact absurd hphase (hnone r r.touches hr)
  · rw [renewal?, hs] at hr
    cases hr
    rw [hphase] at hseen
    rcases h with ⟨htouches, _⟩ | ⟨_, h⟩
    · exact absurd (Renewal.Phase.releasing.inj hseen) htouches
    · exact h

/-!
# Who owns an entry

As long as the manager is not cancelled, having an entry and being neither
released nor ended are the same.
-/

/-- Each renewal that has not given up has the entry of its key. -/
def OwnsEntries (m : Manager) : Prop :=
  forall id r, m.renewal? id = some r -> r.phase ≠ .released ->
    r.phase ≠ .ended ->
    m.holder? r.lease.key = some id

/-- An entry names a renewal of its key that has not given up, and each such
renewal is named until the manager is cancelled. -/
structure WellFormed (m : Manager) : Prop where
  named : forall key id, m.holder? key = some id ->
    exists r, m.renewal? id = some r ∧ r.lease.key = key ∧ r.phase ≠ .released ∧
      (m.isCancelled = false -> r.phase ≠ .ended)
  owner : m.isCancelled = false -> forall id r, m.renewal? id = some r ->
    r.phase ≠ .released -> r.phase ≠ .ended -> m.holder? r.lease.key = some id
  seen : forall id r seen, m.renewal? id = some r ->
    r.phase = .rereading seen ∨ r.phase = .releasing seen -> seen ≤ r.touches

theorem ownsEntries_of_empty {m : Manager} (h : m.registry = .empty) :
    m.OwnsEntries := by
  intro id r hr
  rw [renewal?, h] at hr
  simp [Registry.empty, Registry.renewal?] at hr

theorem wellFormed_of_empty {m : Manager} (h : m.registry = .empty) :
    m.WellFormed where
  named := by
    intro key id hentry
    rw [holder?, h] at hentry
    simp [Registry.empty] at hentry
  owner := fun _ => ownsEntries_of_empty h
  seen := by
    intro id r seen hr
    rw [renewal?, h] at hr
    simp [Registry.empty, Registry.renewal?] at hr

theorem isCancelled_of_step {m : Manager} {e : Event}
    (h : (m.step e).isCancelled = false) :
    m.isCancelled = false := by
  rcases isCancelled_step m e with hsame | hcancelled
  · rw [← hsame]
    exact h
  · rw [h] at hcancelled
    cases hcancelled

theorem named_step {m : Manager} (hm : m.WellFormed) (e : Event) (key : String)
    (id : Nat) (hentry : (m.step e).holder? key = some id) :
    exists r, (m.step e).renewal? id = some r ∧ r.lease.key = key ∧
      r.phase ≠ .released ∧
      ((m.step e).isCancelled = false -> r.phase ≠ .ended) := by
  rcases holder?_step_cases m e key with
    hsame | ⟨now, lease, _, _, _, hkey, hstep⟩ | ⟨_, _, _, _, _, _, _,
      hnone⟩ | ⟨_, _, hnone⟩
  · rw [hsame] at hentry
    rcases hm.named key id hentry with ⟨r, hr, hkey, hreleased, hended⟩
    rcases step_renewal e hr with ⟨r', hr', hmove⟩
    refine ⟨r', hr', by rw [hmove.lease_eq, hkey], ?_⟩
    cases hmove with
    | stay => exact ⟨hreleased, fun h => hended (isCancelled_of_step h)⟩
    | touched => exact ⟨hreleased, fun h => hended (isCancelled_of_step h)⟩
    | finished hphase => exact absurd hphase hreleased
    | stopped hcancelled =>
        refine ⟨by simp [Renewal.enter], ?_⟩
        intro h
        rw [isCancelled_of_step h] at hcancelled
        cases hcancelled
    | released hphase =>
        -- the entry that leads to a renewal is removed when the renewal is
        -- released
        have howned : r.lease.key = key ∧
            m.registry.entries[r.lease.key]? = some id :=
          ⟨hkey, by rw [hkey]; exact hentry⟩
        rw [← hsame, holder?, step_release_of_releasing hr hphase,
          Registry.entries_abandon, if_pos howned] at hentry
        cases hentry
    | _ => simp [Renewal.enter]
  · rw [holder?, hstep, Registry.entries_begin, if_pos hkey] at hentry
    cases hentry
    refine ⟨.start now lease, ?_, hkey, by simp [Renewal.start],
      by simp [Renewal.start]⟩
    rw [renewal?, hstep, Registry.renewal?_begin, if_pos rfl]
  · rw [hnone] at hentry
    cases hentry
  · rw [hnone] at hentry
    cases hentry

/-- An entry is lost only with its renewal, or when the registry is emptied. -/
theorem ownsEntries_step {m : Manager} (hm : m.OwnsEntries) (e : Event)
    (hkept : e = .drain -> m.isCancelled = false) : (m.step e).OwnsEntries := by
  intro id r' hr' hreleased hended
  rcases step_renewal_cases hr' with
    ⟨r, hr, hmove⟩ | ⟨now, lease, rfl, hcancelled, hrunning, hid, rfl⟩
  · have hlive : r.phase ≠ .released ∧ r.phase ≠ .ended := by
      cases hmove with
      | stay => exact ⟨hreleased, hended⟩
      | touched => exact ⟨hreleased, hended⟩
      | finished => exact absurd rfl hended
      | stopped _ hcan =>
          constructor <;> intro hphase <;> simp [Renewal.canCancel,
            hphase] at hcan
      | ticked hphase | answered hphase | doubted hphase | undecided hphase
      | confirmed hphase | lost hphase | kept hphase | released hphase =>
          simp [hphase]
    have hentry := hm id r hr hlive.left hlive.right
    rw [hmove.lease_eq]
    rcases holder?_step_cases m e r.lease.key with
      hsame | ⟨now, lease, _, _, hrunning, hkey, _⟩ | ⟨i, s, rfl, hs,
        hphase, _, hi, _⟩ |
        ⟨he, h, _⟩
    · rw [hsame, hentry]
    · have hrunning' : m.registry.running? r.lease.key = some id :=
        Registry.running?_eq_some_iff.mpr ⟨hentry, r, hr, hlive.right⟩
      rw [← hkey, hrunning] at hrunning'
      cases hrunning'
    · rw [hentry] at hi
      cases hi
      rw [renewal?, step_release_of_releasing hs hphase,
        Registry.renewal?_abandon, if_pos rfl] at hr'
      rw [renewal?] at hr
      rw [hr] at hr'
      cases hr'
      exact absurd rfl hreleased
    · rw [hkept he] at h
      cases h
  · rcases m.registry.ensure_cases m.isCancelled now lease with
      ⟨h, _⟩ | ⟨_, _, h, _⟩ | ⟨_, _, h⟩
    · rw [hcancelled] at h
      cases h
    · rw [hrunning] at h
      cases h
    · rw [hid]
      simp only [holder?, step, h, Renewal.start,
        Registry.entries_begin, if_true]

theorem seen_step {m : Manager} (hm : m.WellFormed) (e : Event) (id : Nat)
    (r' : Renewal) (seen : Nat) (hr' : (m.step e).renewal? id = some r')
    (hphase' : r'.phase = .rereading seen ∨ r'.phase = .releasing seen) :
    seen ≤ r'.touches := by
  rcases step_renewal_cases hr' with
    ⟨r, hr, hmove⟩ | ⟨now, lease, _, _, _, _, rfl⟩
  · cases hmove with
    | stay => exact hm.seen id _ seen hr hphase'
    | touched => exact Nat.le_succ_of_le (hm.seen id r seen hr hphase')
    | doubted =>
        rcases hphase' with hphase' | hphase'
        · cases hphase'
          exact Nat.le_refl _
        · cases hphase'
    | lost hphase =>
        rcases hphase' with hphase' | hphase'
        · cases hphase'
        · cases hphase'
          exact hm.seen id r seen hr (Or.inl hphase)
    | _ => simp [Renewal.enter] at hphase'
  · simp [Renewal.start] at hphase'

theorem wellFormed_step {m : Manager} (hm : m.WellFormed) (e : Event) :
    (m.step e).WellFormed :=
  { named := named_step hm e
    owner := fun h =>
      ownsEntries_step (hm.owner (isCancelled_of_step h)) e
        (fun _ => isCancelled_of_step h)
    seen := seen_step hm e }

/-!
# Running renewals

The renewal that an entry names is the only renewal of its key that can be
found running, so asking for a claim never meets a renewal that has given up.
-/

theorem running?_eq_some_iff {m : Manager} (hm : m.WellFormed)
    (h : m.isCancelled = false) {key : String} {id : Nat} :
    m.registry.running? key = some id <->
      exists r, m.renewal? id = some r ∧ r.lease.key = key ∧
        r.phase ≠ .released ∧
        r.phase ≠ .ended := by
  rw [Registry.running?_eq_some_iff]
  constructor
  · rintro ⟨hentry, _⟩
    rcases hm.named key id hentry with ⟨r, hr, hkey, hreleased, hended⟩
    exact ⟨r, hr, hkey, hreleased, hended h⟩
  · rintro ⟨r, hr, hkey, hreleased, hended⟩
    have hentry := hm.owner h id r hr hreleased hended
    rw [hkey] at hentry
    exact ⟨hentry, r, hr, hended⟩

end Manager
end FairLease
