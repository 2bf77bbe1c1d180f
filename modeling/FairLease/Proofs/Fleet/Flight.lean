import FairLease.Proofs.Fleet.Holdings

/-!
# Calls in flight

A call is in flight from its first page until it tries to create its claim. It
enters this stage once and does not come back to it.
-/

namespace FairLease

/-- How far an admission has got: before its first page, between that and its
create, or past both. -/
def Admission.stage (a : Admission) : Nat :=
  match a.phase with
  | .listing (.reading _ none) => 0
  | .listing (.reading _ (some _)) => 1
  | .creating => 1
  | _ => 2

namespace Fleet

open MemoryStore

variable {ι : Type} [DecidableEq ι]

/-!
# Calls between their first page and their create
-/

/-- The calls for an owner that have listed a page and not yet tried to create
the claim. -/
def inFlight (f : Fleet ι) (uid : String) : Finset Nat :=
  (Finset.range f.calls.size).filter (fun j =>
    (f.calls[j]?).any (fun c => c.admission.uid == uid &&
      c.admission.stage == 1))

omit [DecidableEq ι] in
theorem mem_inFlight_iff {f : Fleet ι} {uid : String} {j : Nat} :
    j ∈ f.inFlight uid <->
      exists c, f.calls[j]? = some c ∧ c.admission.uid = uid ∧
        c.admission.stage = 1 := by
  unfold inFlight
  rw [Finset.mem_filter, Finset.mem_range]
  cases hc : f.calls[j]? with
  | none => simp
  | some c =>
      have hj : j < f.calls.size := by
        rcases Array.getElem?_eq_some_iff.mp hc with ⟨hj, _⟩
        exact hj
      simp [hj]

omit [DecidableEq ι] in
theorem Call.Move.stage_le {f : Fleet ι} {j : Nat} {act : Act ι} {c c' : Call ι}
    (h : Call.Move f j act c c') : c.admission.stage ≤ c'.admission.stage := by
  cases h with
  | stay => exact Nat.le_refl _
  | @listed _ found token hphase =>
      rcases Admission.listed_cases hphase (f.settings c)
        (f.store.scan f.now (Listing.request (f.settings c) token)).1 with
        ⟨e, herror⟩ | ⟨all, _, ⟨key, _, hreading⟩ | ⟨_, hdecide⟩⟩
      · cases token <;> simp [Admission.stage, hphase, herror]
      · cases token <;> simp [Admission.stage, hphase, hreading]
      · rcases Admission.decide_cases c.admission all with
          ⟨_, h⟩ | ⟨_, _, h⟩ | h <;>
          rw [h] at hdecide <;> cases token <;> simp [Admission.stage,
            hphase, hdecide]
  | created hphase =>
      rcases Admission.created_cases hphase
        (f.store.write f.now (c.admission.command (f.settings c))).1 with
        ⟨w, _, h⟩ | ⟨e, _, h | ⟨e', h⟩⟩ <;> simp [Admission.stage, hphase, h]
  | registered hphase =>
      simp [Admission.stage, hphase, Admission.registered_phase hphase]

section

variable {start : Fleet ι} {acts : List (Act ι)}

theorem stage_after {j m n : Nat} {c : Call ι} (hmn : m ≤ n)
    (hc : (start.after acts m).calls[j]? = some c) :
    exists c', (start.after acts n).calls[j]? = some c' ∧
      c'.admission.uid = c.admission.uid ∧
        c.admission.stage ≤ c'.admission.stage := by
  refine stateAt_related
    (R := fun f g : Fleet ι => forall c, f.calls[j]? = some c ->
      exists c', g.calls[j]? = some c' ∧
      c'.admission.uid = c.admission.uid ∧
        c.admission.stage ≤ c'.admission.stage)
    ?_ ?_ ?_ start acts hmn c hc
  · intro f c hc
    exact ⟨c, hc, rfl, Nat.le_refl _⟩
  · intro f g h hfg hgh c hc
    rcases hfg c hc with ⟨c', hc', huid', hstage'⟩
    rcases hgh c' hc' with ⟨c'', hc'', huid'', hstage''⟩
    exact ⟨c'', hc'', huid''.trans huid', Nat.le_trans hstage' hstage''⟩
  · intro f act c hc
    rcases (step_next f act).call hc with ⟨c', hc', hmove⟩
    exact ⟨c', hc', hmove.request_eq.right.left, hmove.stage_le⟩

/-- By the act `p` the call lists its first page, and it goes on. -/
def EntersAt (start : Fleet ι) (acts : List (Act ι)) (j p : Nat) : Prop :=
  exists c c', (start.after acts p).calls[j]? = some c ∧ c.admission.stage = 0 ∧
    (start.after acts (p + 1)).calls[j]? = some c' ∧ c'.admission.stage = 1

theorem entersAt_unique {j p q : Nat} (hp : EntersAt start acts j p)
    (hq : EntersAt start acts j q) : p = q := by
  have hle {p q : Nat} (hp : EntersAt start acts j p)
      (hq : EntersAt start acts j q) : q ≤ p := by
    rcases hp with ⟨_, c, _, _, hc, hone⟩
    rcases hq with ⟨d, _, hd, hzero, _⟩
    apply Nat.le_of_not_lt
    intro hpq
    rcases stage_after hpq hc with ⟨d', hd', _, hstage⟩
    rw [hd] at hd'
    cases hd'
    omega
  exact Nat.le_antisymm (hle hq hp) (hle hp hq)

end

end Fleet
end FairLease
