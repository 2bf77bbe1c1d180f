import FairLease.Proofs.Lease.Entries
import FairLease.Proofs.Run
import FairLease.Simulation.World

/-!
# The release handshake

A renewal that seems to have lost its claim looks again, and leaves if the claim
was not asked for in the meantime. Whoever asks while it can still be found is
therefore served: either by a later look, or by a new renewal.
-/

namespace FairLease
namespace Manager

def phase? (m : Manager) (id : Nat) : Option Renewal.Phase :=
  (m.renewal? id).map (·.phase)

def after (start : Manager) (steps : List Event) (n : Nat) : Manager :=
  stateAt step start steps n

section

variable {start : Manager} {steps : List Event}

theorem phase?_eq_some_iff {m : Manager} {id : Nat} {phase : Renewal.Phase} :
    m.phase? id = some phase <-> exists r, m.renewal? id = some r ∧
      r.phase = phase := by
  simp [phase?]

theorem after_succ {n : Nat} {e : Event} (h : steps[n]? = some e) :
    start.after steps (n + 1) = (start.after steps n).step e :=
  stateAt_succ h

theorem after_succ_of_none {n : Nat} (h : steps[n]? = none) :
    start.after steps (n + 1) = start.after steps n :=
  stateAt_succ_of_none h

theorem wellFormed_after (hstart : start.registry = .empty) (n : Nat) :
    (start.after steps n).WellFormed :=
  stateAt_invariant (wellFormed_of_empty hstart)
    (fun _ e h => wellFormed_step h e) steps n

theorem isCancelled_after {m n : Nat} (hmn : m ≤ n)
    (h : (start.after steps n).isCancelled = false) :
    (start.after steps m).isCancelled = false := by
  refine stateAt_related
    (R := fun s t => t.isCancelled = false -> s.isCancelled = false)
    ?_ ?_ ?_ start steps hmn h
  · intro s hs
    exact hs
  · intro s t u hst htu hu
    exact hst (htu hu)
  · intro s e
    exact isCancelled_of_step

theorem renewal?_after {m n id : Nat} {r : Renewal} (hmn : m ≤ n)
    (h : (start.after steps m).renewal? id = some r) :
    exists r', (start.after steps n).renewal? id = some r' ∧
      r'.lease = r.lease ∧
      r.touches ≤ r'.touches := by
  refine stateAt_related
    (R := fun s t => forall r, s.renewal? id = some r ->
      exists r', t.renewal? id = some r' ∧
      r'.lease = r.lease ∧ r.touches ≤ r'.touches)
    ?_ ?_ ?_ start steps hmn r h
  · intro s r hr
    exact ⟨r, hr, rfl, Nat.le_refl _⟩
  · intro s t u hst htu r hr
    rcases hst r hr with ⟨r', hr', hlease', htouches'⟩
    rcases htu r' hr' with ⟨r'', hr'', hlease'', htouches''⟩
    exact ⟨r'', hr'', hlease''.trans hlease', Nat.le_trans htouches' htouches''⟩
  · intro s e r hr
    rcases step_renewal e hr with ⟨r', hr', hmove⟩
    exact ⟨r', hr', hmove.lease_eq, hmove.touches_le⟩

end

/-!
# What leads to a release

A renewal that is looking again began to do so when its command was refused, and
one that is about to leave has seen another value than its own. Both remember
how often the claim had been asked for when the command was refused.
-/

/-- At the step `b` the renewal learns that its command was refused because of
another value. -/
structure DoubtsAt (start : Manager) (steps : List Event) (id seen b : Nat) :
    Prop where
  answer : exists key expected actual,
    steps[b]? = some (.swapped id (.error (.compareFailed key expected actual)))
  asked : exists r, (start.after steps b).renewal? id = some r ∧
    r.phase = .swapping ∧
    r.touches = seen

/-- The renewal looks again from `b` on, takes up another value than its own at
`a`, and has done nothing else until `n`. -/
structure LostSince (start : Manager) (steps : List Event)
    (id seen b a n : Nat) : Prop where
  doubts : DoubtsAt start steps id seen b
  begun : b < a
  looking : forall j, b < j -> j ≤ a ->
    (start.after steps j).phase? id = some (.rereading seen)
  other : exists found r, steps[a]? = some (.reread id (.ok found)) ∧
    (start.after steps a).renewal? id = some r ∧
      found.entry.map (·.value) ≠ some r.lease.owner
  past : a < n
  leaving : forall j, a < j -> j ≤ n ->
    (start.after steps j).phase? id = some (.releasing seen)

section

variable {start : Manager} {steps : List Event}

theorem rereading_history (hstart : start.registry = .empty) {id seen n : Nat}
    (h : (start.after steps n).phase? id = some (.rereading seen)) :
    exists b, b < n ∧ DoubtsAt start steps id seen b ∧
      forall j, b < j -> j ≤ n ->
        (start.after steps j).phase? id = some (.rereading seen) := by
  induction n with
  | zero =>
      rw [phase?, renewal?, after, stateAt_zero, hstart] at h
      simp [Registry.empty, Registry.renewal?] at h
  | succ n ih =>
      have hcontinue (hbefore : (start.after steps n).phase? id =
          some (.rereading seen)) :
          exists b, b < n + 1 ∧ DoubtsAt start steps id seen b ∧
            forall j, b < j -> j ≤ n + 1 ->
              (start.after steps j).phase? id = some (.rereading seen) := by
        rcases ih hbefore with ⟨b, hb, hdoubts, hlooking⟩
        refine ⟨b, Nat.lt_succ_of_lt hb, hdoubts, ?_⟩
        intro j hbj hj
        rcases Nat.lt_or_eq_of_le hj with hlt | heq
        · exact hlooking j hbj (Nat.le_of_lt_succ hlt)
        · rw [heq]
          exact h
      cases hstep : steps[n]? with
      | none =>
          rw [after_succ_of_none hstep] at h
          exact hcontinue h
      | some e =>
          rcases phase?_eq_some_iff.mp h with ⟨r', hr', hphase'⟩
          rw [after_succ hstep] at hr'
          rcases step_renewal_cases hr' with
            ⟨r, hr, hmove⟩ | ⟨_, _, _, _, _, _, rfl⟩
          · cases hmove with
            | stay => exact hcontinue (phase?_eq_some_iff.mpr ⟨_, hr, hphase'⟩)
            | touched =>
                exact hcontinue (phase?_eq_some_iff.mpr ⟨_, hr, hphase'⟩)
            | @doubted key expected actual _ hphase =>
                cases hphase'
                refine ⟨n, Nat.lt_succ_self n,
                  ⟨⟨key, expected, actual, hstep⟩, r, hr, hphase, rfl⟩, ?_⟩
                intro j hnj hj
                rw [Nat.le_antisymm hj hnj]
                exact h
            | _ => simp [Renewal.enter] at hphase'
          · simp [Renewal.start] at hphase'

theorem releasing_history (hstart : start.registry = .empty) {id seen n : Nat}
    (h : (start.after steps n).phase? id = some (.releasing seen)) :
    exists b a, LostSince start steps id seen b a n := by
  induction n with
  | zero =>
      rw [phase?, renewal?, after, stateAt_zero, hstart] at h
      simp [Registry.empty, Registry.renewal?] at h
  | succ n ih =>
      have hcontinue (hbefore : (start.after steps n).phase? id =
          some (.releasing seen)) :
          exists b a, LostSince start steps id seen b a (n + 1) := by
        rcases ih hbefore with ⟨b, a, hlost⟩
        refine ⟨b, a, { hlost with past := Nat.lt_succ_of_lt hlost.past, leaving := ?_ }⟩
        intro j haj hj
        rcases Nat.lt_or_eq_of_le hj with hlt | heq
        · exact hlost.leaving j haj (Nat.le_of_lt_succ hlt)
        · rw [heq]
          exact h
      cases hstep : steps[n]? with
      | none =>
          rw [after_succ_of_none hstep] at h
          exact hcontinue h
      | some e =>
          rcases phase?_eq_some_iff.mp h with ⟨r', hr', hphase'⟩
          rw [after_succ hstep] at hr'
          rcases step_renewal_cases hr' with
            ⟨r, hr, hmove⟩ | ⟨_, _, _, _, _, _, rfl⟩
          · cases hmove with
            | stay => exact hcontinue (phase?_eq_some_iff.mpr ⟨_, hr, hphase'⟩)
            | touched =>
                exact hcontinue (phase?_eq_some_iff.mpr ⟨_, hr, hphase'⟩)
            | @lost found _ _ hphase hother =>
                cases hphase'
                rcases rereading_history hstart
                  (phase?_eq_some_iff.mpr ⟨r, hr, hphase⟩) with
                  ⟨b, hb, hdoubts, hlooking⟩
                refine ⟨b, n, hdoubts, hb, hlooking,
                  ⟨found, r, hstep, hr, hother⟩, Nat.lt_succ_self n, ?_⟩
                intro j hnj hj
                rw [Nat.le_antisymm hj hnj]
                exact h
            | _ => simp [Renewal.enter] at hphase'
          · simp [Renewal.start] at hphase'

end

/-!
# Who asks and who leaves
-/

def AsksAt (steps : List Event) (key : String) (n : Nat) : Prop :=
  exists now lease, steps[n]? = some (.ensure now lease) ∧ lease.key = key

/-- The step `n` asks for a claim and finds the renewal running, so that it
starts none. -/
def FoundAt (start : Manager) (steps : List Event) (id n : Nat) : Prop :=
  exists now lease, steps[n]? = some (.ensure now lease) ∧
    (start.after steps n).isCancelled = false ∧
    (start.after steps n).registry.running? lease.key = some id

def StartsAt (start : Manager) (steps : List Event) (id : Nat) (lease : Lease)
    (n : Nat) : Prop :=
  exists now, steps[n]? = some (.ensure now lease) ∧
    ((start.after steps n).registry.ensure (start.after steps n).isCancelled
      now lease).1 =
      some id ∧
    (start.after steps (n + 1)).renewal? id = some (.start now lease) ∧
    (start.after steps (n + 1)).registry.running? lease.key = some id

def LeavesAt (start : Manager) (steps : List Event) (id n : Nat) : Prop :=
  (start.after steps n).phase? id ≠ some .released ∧
    (start.after steps (n + 1)).phase? id = some .released

section

variable {start : Manager} {steps : List Event}

theorem leavesAt_iff {id n : Nat} :
    LeavesAt start steps id n <->
      exists r, (start.after steps n).renewal? id = some r ∧
        r.phase = .releasing r.touches ∧ steps[n]? = some (.release id) := by
  constructor
  · rintro ⟨hbefore, hafter⟩
    cases hstep : steps[n]? with
    | none =>
        rw [after_succ_of_none hstep] at hafter
        exact absurd hafter hbefore
    | some e =>
        rcases phase?_eq_some_iff.mp hafter with ⟨r', hr', hphase'⟩
        rw [after_succ hstep] at hr'
        rcases step_renewal_cases hr' with
          ⟨r, hr, hmove⟩ | ⟨_, _, _, _, _, _, rfl⟩
        · cases hmove with
          | stay =>
              exact absurd (phase?_eq_some_iff.mpr ⟨_, hr, hphase'⟩) hbefore
          | touched =>
              exact absurd (phase?_eq_some_iff.mpr ⟨_, hr, hphase'⟩) hbefore
          | released hphase => exact ⟨r, hr, hphase, rfl⟩
          | _ => simp [Renewal.enter] at hphase'
        · simp [Renewal.start] at hphase'
  · rintro ⟨r, hr, hphase, hstep⟩
    constructor
    · simp [phase?, hr, hphase]
    · rw [after_succ hstep, phase?, renewal?,
        step_release_of_releasing hr hphase,
        Registry.renewal?_abandon, if_pos rfl]
      rw [renewal?] at hr
      simp [hr, Renewal.enter]

/-- The look that makes a renewal leave begins after every step that found it
running. -/
theorem leavesAt_lostSince (hstart : start.registry = .empty) {id m : Nat}
    (h : LeavesAt start steps id m) :
    exists seen b a, LostSince start steps id seen b a m ∧
      forall n, n < m -> FoundAt start steps id n -> n < b := by
  rcases leavesAt_iff.mp h with ⟨r, hr, hphase, _⟩
  rcases releasing_history hstart (phase?_eq_some_iff.mpr ⟨r, hr, hphase⟩) with
    ⟨b, a, hlost⟩
  refine ⟨r.touches, b, a, hlost, ?_⟩
  rintro n hnm ⟨now, lease, hstep, hcancelled, hrunning⟩
  rcases hlost.doubts.asked with ⟨rb, hrb, _, hseen⟩
  apply Nat.lt_of_not_le
  intro hbn
  -- the touch at `n` comes after the touches were read at `b`, so that they
  -- differ at `m`
  rcases renewal?_after hbn hrb with ⟨rn, hrn, _, hbelow⟩
  have htouched : (start.after steps (n + 1)).renewal? id = some rn.touch := by
    rcases (start.after steps n).registry.ensure_cases
      (start.after steps n).isCancelled now lease
      with ⟨hc, _⟩ | ⟨_, i, hi, hensure⟩ | ⟨_, hnone, _⟩
    · rw [hcancelled] at hc
      cases hc
    · rw [hrunning] at hi
      cases hi
      rw [renewal?] at hrn
      rw [after_succ hstep, renewal?, step, hensure, Registry.renewal?_update,
        if_pos rfl, hrn]
      rfl
    · rw [hrunning] at hnone
      cases hnone
  rcases renewal?_after hnm htouched with ⟨rm, hrm, _, habove⟩
  rw [hr] at hrm
  cases hrm
  have hbetween : rn.touches + 1 ≤ r.touches := habove
  omega

theorem holder?_after_eq_none {key : String} {m n : Nat} (hmn : m ≤ n)
    (hnone : (start.after steps m).holder? key = none)
    (hasks : forall j, m ≤ j -> j < n -> ¬ AsksAt steps key j) :
    (start.after steps n).holder? key = none := by
  induction hmn with
  | refl => exact hnone
  | @step n hmn ih =>
      have hbefore := ih (fun j hmj hj => hasks j hmj (Nat.lt_succ_of_lt hj))
      cases hstep : steps[n]? with
      | none =>
          rw [after_succ_of_none hstep]
          exact hbefore
      | some e =>
          rw [after_succ hstep]
          rcases holder?_step_cases (start.after steps n) e key with
            hsame | ⟨now, lease, rfl, _, _, hkey, _⟩ | ⟨_, _, _, _, _, _, _,
              h⟩ | ⟨_, _, h⟩
          · rw [hsame, hbefore]
          · exact absurd ⟨now, lease, hstep, hkey⟩
              (hasks n hmn (Nat.lt_succ_self n))
          · exact h
          · exact h

theorem startsAt_of_running?_eq_none {n : Nat} {now : Nat} {lease : Lease}
    (hstep : steps[n]? = some (.ensure now lease))
    (hcancelled : (start.after steps n).isCancelled = false)
    (hnone : (start.after steps n).registry.running? lease.key = none) :
    StartsAt start steps (start.after steps n).registry.renewals.size
      lease n := by
  rcases (start.after steps n).registry.ensure_cases
    (start.after steps n).isCancelled now lease
    with ⟨hc, _⟩ | ⟨_, i, hi, _⟩ | ⟨_, _, hensure⟩
  · rw [hcancelled] at hc
    cases hc
  · rw [hnone] at hi
    cases hi
  · have hbegun : (start.after steps (n + 1)).registry =
        (start.after steps n).registry.begin now lease := by
      rw [after_succ hstep, step, hensure]
    have hrenewal : (start.after steps (n + 1)).renewal?
        (start.after steps n).registry.renewals.size =
          some (.start now lease) := by
      rw [renewal?, hbegun, Registry.renewal?_begin, if_pos rfl]
    refine ⟨now, hstep, by rw [hensure], hrenewal, ?_⟩
    rw [Registry.running?_eq_some_iff]
    refine ⟨?_, _, hrenewal, by simp [Renewal.start]⟩
    rw [hbegun, Registry.entries_begin, if_pos rfl]

/-- Whoever first asks for a claim that was given up starts a new renewal. -/
theorem startsAt_of_leavesAt (hstart : start.registry = .empty) {id m n : Nat}
    {r : Renewal} (hleaves : LeavesAt start steps id m)
    (hr : (start.after steps m).renewal? id = some r) (hmn : m < n)
    (hcancelled : (start.after steps n).isCancelled = false)
    (hfirst : forall j, m < j -> j < n -> ¬ AsksAt steps r.lease.key j)
    {now : Nat} {lease : Lease} (hstep : steps[n]? = some (.ensure now lease))
    (hkey : lease.key = r.lease.key) :
    exists id', id' ≠ id ∧ StartsAt start steps id' lease n := by
  rcases leavesAt_iff.mp hleaves with ⟨s, hs, hphase, hrelease⟩
  rw [hr] at hs
  cases hs
  have hwell : (start.after steps m).WellFormed := wellFormed_after hstart m
  have howner :=
    hwell.owner (isCancelled_after (Nat.le_of_lt hmn) hcancelled) id r hr
    (by simp [hphase]) (by simp [hphase])
  have hgone : (start.after steps (m + 1)).holder? r.lease.key = none := by
    rw [after_succ hrelease, holder?, step_release_of_releasing hr hphase,
      Registry.entries_abandon, if_pos ⟨rfl, howner⟩]
  have hnone := holder?_after_eq_none hmn hgone hfirst
  have hidle : (start.after steps n).registry.running? lease.key = none := by
    rw [hkey, Registry.running?]
    rw [holder?] at hnone
    rw [hnone, Option.filter_none]
  refine ⟨_, ?_, startsAt_of_running?_eq_none hstep hcancelled hidle⟩
  intro heq
  rcases renewal?_after (Nat.le_of_lt hmn) hr with ⟨rn, hrn, _⟩
  rw [← heq, renewal?_size] at hrn
  cases hrn

/-!
# Where renewals come from and how they end
-/

theorem startsAt_of_renewal? (hstart : start.registry = .empty) {id n : Nat}
    {r : Renewal} (h : (start.after steps n).renewal? id = some r) :
    exists i, i < n ∧ StartsAt start steps id r.lease i := by
  induction n generalizing r with
  | zero =>
      rw [renewal?, after, stateAt_zero, hstart] at h
      simp [Registry.empty, Registry.renewal?] at h
  | succ n ih =>
      cases hstep : steps[n]? with
      | none =>
          rw [after_succ_of_none hstep] at h
          rcases ih h with ⟨i, hi, hstarts⟩
          exact ⟨i, Nat.lt_succ_of_lt hi, hstarts⟩
      | some e =>
          rw [after_succ hstep] at h
          rcases step_renewal_cases h with
            ⟨r', hr', hmove⟩ | ⟨now, lease, rfl, hcancelled, hrunning, rfl, rfl⟩
          · rcases ih hr' with ⟨i, hi, hstarts⟩
            rw [hmove.lease_eq]
            exact ⟨i, Nat.lt_succ_of_lt hi, hstarts⟩
          · exact ⟨n, Nat.lt_succ_self n,
              startsAt_of_running?_eq_none hstep hcancelled hrunning⟩

def IsActive (m : Manager) (id : Nat) : Prop :=
  exists r, m.renewal? id = some r ∧ r.phase ≠ .released ∧ r.phase ≠ .ended

theorem leaves_or_stops {id n : Nat}
    (hbefore : (start.after steps n).IsActive id)
    (hafter : ¬ (start.after steps (n + 1)).IsActive id) :
    LeavesAt start steps id n ∨
      (steps[n]? = some (.stop id) ∧
        (start.after steps n).isCancelled = true) := by
  rcases hbefore with ⟨r, hr, hreleased, hended⟩
  cases hstep : steps[n]? with
  | none =>
      rw [after_succ_of_none hstep] at hafter
      exact absurd ⟨r, hr, hreleased, hended⟩ hafter
  | some e =>
      rcases step_renewal e hr with ⟨r', hr', hmove⟩
      rw [← after_succ hstep] at hr'
      have hover : r'.phase = .released ∨ r'.phase = .ended := by
        by_cases h : r'.phase = .released
        · exact Or.inl h
        · exact Or.inr (Decidable.byContradiction fun h' =>
            hafter ⟨r', hr', h, h'⟩)
      cases hmove with
      | stay => exact absurd ⟨_, hr', hreleased, hended⟩ hafter
      | touched => exact absurd ⟨_, hr', hreleased, hended⟩ hafter
      | finished hphase => exact absurd hphase hreleased
      | released hphase =>
          exact Or.inl (leavesAt_iff.mpr ⟨r, hr, hphase, hstep⟩)
      | stopped hcancelled => exact Or.inr ⟨rfl, hcancelled⟩
      | _ => simp [Renewal.enter] at hover

end

end Manager

/-!
# What a renewal writes
-/

theorem Simulation.command_of_call? {W : Type} {n : Simulation.Node} {id : Nat}
    {c : Command}
    (h : (Simulation.Job.renewal id : Simulation.Job W).call? n =
      some (.write c)) :
    exists r, n.manager.renewal? id = some r ∧ r.phase = .swapping ∧
      c = r.command := by
  unfold Simulation.Job.call? at h
  cases hr : n.manager.registry.renewal? id with
  | none =>
      simp [hr] at h
  | some r =>
      cases hphase : r.phase with
      | swapping =>
          simp only [hr, hphase] at h
          cases h
          exact ⟨r, hr, hphase, rfl⟩
      | _ => simp [hr, hphase] at h

/-!
# The handshake as a whole
-/

namespace Manager

/-- Every run of the renewals of a manager, whatever the store answers: (1) a
renewal that was found running leaves only after a look that began later and
showed another value than its own; (2) whoever asks first after it has left
starts a new renewal; (3) nothing else makes a renewal end but the shutdown; (4)
it writes its owner over its owner and nothing else. -/
theorem release_handshake
    (start : Manager) (steps : List Event) (hstart : start.registry = .empty) :
    (forall id n m, FoundAt start steps id n -> n < m ->
      LeavesAt start steps id m ->
      exists seen b a, n < b ∧ LostSince start steps id seen b a m) ∧
    (forall id m n r now lease, LeavesAt start steps id m ->
      (start.after steps m).renewal? id = some r -> m < n ->
      (start.after steps n).isCancelled = false ->
      (forall j, m < j -> j < n -> ¬ AsksAt steps r.lease.key j) ->
      steps[n]? = some (.ensure now lease) -> lease.key = r.lease.key ->
      exists id', id' ≠ id ∧ StartsAt start steps id' lease n) ∧
    (forall id n, (start.after steps n).IsActive id ->
      ¬ (start.after steps (n + 1)).IsActive id ->
      (LeavesAt start steps id n ∧
        exists seen b a, LostSince start steps id seen b a n) ∨
        (steps[n]? = some (.stop id) ∧
          (start.after steps n).isCancelled = true)) ∧
    (forall (W : Type)
      (node : Simulation.Node) id n c, node.manager = start.after steps n ->
      (Simulation.Job.renewal id : Simulation.Job W).call? node =
        some (.write c) ->
      exists i lease, i < n ∧ StartsAt start steps id lease i ∧
        c = .compareAndSwapWithTtl lease.key lease.owner lease.owner
          lease.ttlMs) := by
  refine ⟨?_, ?_, ?_, ?_⟩
  · intro id n m hfound hnm hleaves
    rcases leavesAt_lostSince hstart hleaves with ⟨seen, b, a, hlost, hlater⟩
    exact ⟨seen, b, a, hlater n hnm hfound, hlost⟩
  · intro id m n r now lease hleaves hr hmn hcancelled hfirst hstep hkey
    exact startsAt_of_leavesAt hstart hleaves hr hmn hcancelled
      hfirst hstep hkey
  · intro id n hbefore hafter
    rcases leaves_or_stops hbefore hafter with hleaves | hstops
    · rcases leavesAt_lostSince hstart hleaves with ⟨seen, b, a, hlost, _⟩
      exact Or.inl ⟨hleaves, seen, b, a, hlost⟩
    · exact Or.inr hstops
  · intro W node id n c hnode hcall
    rcases Simulation.command_of_call? hcall with ⟨r, hr, _, hc⟩
    rw [hnode] at hr
    rcases startsAt_of_renewal? hstart hr with ⟨i, hi, hstarts⟩
    exact ⟨i, r.lease, hi, hstarts, hc⟩

def soleLease : Lease :=
  { key := "/ipclaim/x", owner := "a", ttlMs := 1000, interval := .ofMillis 100 }

def soleManager : Manager :=
  { settings := .default, isCancelled := false, registry := .empty }

/-- A claim that is asked for again before its loss is noticed, and once more
after it. -/
def losingSteps : List Event :=
  [.ensure 0 soleLease, .tick 0 100000000, .ensure 0 soleLease,
    .swapped 0 (.error (.compareFailed "/ipclaim/x" (some "a") none)),
    .reread 0 (.ok ⟨none⟩), .release 0, .ensure 0 soleLease]

theorem release_handshake_losingSteps :
    FoundAt soleManager losingSteps 0 2 ∧ LeavesAt soleManager losingSteps 0 5 ∧
      (exists seen b a, 2 < b ∧
        LostSince soleManager losingSteps 0 seen b a 5) ∧
      exists id', id' ≠ 0 ∧
        StartsAt soleManager losingSteps id' soleLease 6 := by
  have hfound : FoundAt soleManager losingSteps 0 2 :=
    ⟨0, soleLease, rfl, rfl, by decide⟩
  have hleaves : LeavesAt soleManager losingSteps 0 5 := ⟨by decide, by decide⟩
  rcases release_handshake soleManager losingSteps rfl with
    ⟨hfresh, hrestart, _, _⟩
  have hlost := hfresh 0 2 5 hfound (by decide) hleaves
  rcases leavesAt_iff.mp hleaves with ⟨r, hr, _⟩
  have hlease : ((soleManager.after losingSteps 5).renewal? 0).map (·.lease) =
      some soleLease := by
    decide
  rw [hr] at hlease
  refine ⟨hfound, hleaves, hlost,
    hrestart 0 5 6 r 0 soleLease hleaves hr (by decide) rfl ?_ rfl ?_⟩
  · intro j hj hj'
    omega
  · rw [← Option.some.inj hlease]

end Manager
end FairLease
