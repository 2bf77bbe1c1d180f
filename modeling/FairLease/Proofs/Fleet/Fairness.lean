import Mathlib.Data.Nat.Find
import FairLease.Proofs.Fleet.Progress

/-!
# Fairness of concurrent calls

A call decides by what it has listed, while other calls of the same owner create
claims that it has not seen. Of all calls that create a claim take the one that
began to list last: the others were in flight by then, so that their number
bounds what the owner has gained since.
-/

namespace FairLease
namespace Fleet

open MemoryStore

variable {ι : Type} [DecidableEq ι]

/-!
# Attempts

Only an attempt to create a claim adds one to an owner, and it ends the flight
of its call.
-/

def AttemptsAt (start : Fleet ι) (acts : List (Act ι)) (uid : String)
    (j n : Nat) : Prop :=
  acts[n]? = some (.proceed j) ∧
  exists c, (start.after acts n).calls[j]? = some c ∧
    c.admission.phase = .creating ∧ c.admission.uid = uid

section

variable {root uid : String} {start : Fleet ι} {acts : List (Act ι)}

theorem mem_inFlight_of_attempt {j n : Nat}
    (h : AttemptsAt start acts uid j n) :
    j ∈ (start.after acts n).inFlight uid := by
  rcases h with ⟨_, c, hc, hphase, huid⟩
  rw [mem_inFlight_iff]
  exact ⟨c, hc, huid, by simp [Admission.stage, hphase]⟩

theorem notMem_inFlight_of_attempt {j n : Nat}
    (h : AttemptsAt start acts uid j n) :
    j ∉ (start.after acts (n + 1)).inFlight uid := by
  rcases h with ⟨hact, c, hc, hphase, _⟩
  intro hmem
  rw [mem_inFlight_iff, after_succ hact, next_created hc hphase, calls_setCall,
    if_pos rfl, calls_setStore, hc] at hmem
  rcases hmem with ⟨c', hc', _, hstage⟩
  cases hc'
  rcases Admission.created_cases hphase
    ((start.after acts n).store.write (start.after acts n).now
    (c.admission.command ((start.after acts n).settings c))).1 with
    ⟨_, _, h⟩ | ⟨_, _, h | ⟨_, h⟩⟩ <;> simp [Admission.stage, h] at hstage

theorem mem_inFlight_between {j m k n : Nat} (hmk : m ≤ k) (hkn : k ≤ n)
    (hm : j ∈ (start.after acts m).inFlight uid)
    (hn : j ∈ (start.after acts n).inFlight uid) :
    j ∈ (start.after acts k).inFlight uid := by
  rw [mem_inFlight_iff] at hm hn ⊢
  rcases hm with ⟨c, hc, huid, hstage⟩
  rcases hn with ⟨c'', hc'', _, hstage''⟩
  rcases stage_after hmk hc with ⟨c', hc', huid', hle⟩
  rcases stage_after hkn hc' with ⟨d, hd, _, hle'⟩
  rw [hc''] at hd
  cases hd
  exact ⟨c', hc', huid'.trans huid, by omega⟩

theorem count_succ_cases (hroot : start.IsRooted root) (n : Nat) :
    (start.after acts (n + 1)).count root uid ≤
      (start.after acts n).count root uid ∨
      exists j, AttemptsAt start acts uid j n ∧
        (start.after acts (n + 1)).count root uid ≤
          (start.after acts n).count root uid + 1 := by
  rcases after_cases start acts n with ⟨_, hsame⟩ | ⟨act, hact, hstep⟩
  · exact Or.inl (by rw [hsame])
  · rcases hstep.count_cases (isRooted_after hroot n) uid with
      hle | ⟨j, c, rfl, hc, hphase, huid, hle⟩
    · exact Or.inl hle
    · exact Or.inr ⟨j, ⟨hact, c, hc, hphase, huid⟩, hle⟩

/-- If every attempt since `p` comes from a call that was in flight then, the
owner has gained at most one claim for each of these calls that is not in flight
any more. -/
theorem count_add_inFlight_le (hroot : start.IsRooted root) {p m : Nat}
    (hpm : p ≤ m)
    (hflight : forall j n, p ≤ n -> n < m -> AttemptsAt start acts uid j n ->
      j ∈ (start.after acts p).inFlight uid) :
    (start.after acts m).count root uid +
        ((start.after acts m).inFlight uid ∩
          (start.after acts p).inFlight uid).card ≤
      (start.after acts p).count root uid +
        ((start.after acts p).inFlight uid).card := by
  induction hpm with
  | refl => rw [Finset.inter_self]
  | @step m hpm ih =>
      change (start.after acts (m + 1)).count root uid +
        ((start.after acts (m + 1)).inFlight uid ∩
          (start.after acts p).inFlight uid).card ≤ _
      have hbefore :=
        ih (fun j n hpn hnm => hflight j n hpn (Nat.lt_succ_of_lt hnm))
      have hsub : (start.after acts (m + 1)).inFlight uid ∩
          (start.after acts p).inFlight uid ⊆
          (start.after acts m).inFlight uid ∩
            (start.after acts p).inFlight uid := by
        intro j hj
        rw [Finset.mem_inter] at hj ⊢
        exact ⟨mem_inFlight_between hpm (Nat.le_add_right m 1) hj.right hj.left,
          hj.right⟩
      rcases count_succ_cases hroot m with hle | ⟨j, hattempt, hle⟩
      · have hcard := Finset.card_le_card hsub
        exact Nat.le_trans (Nat.add_le_add hle hcard) hbefore
      · have hin : j ∈ (start.after acts m).inFlight uid ∩
            (start.after acts p).inFlight uid :=
          Finset.mem_inter.mpr ⟨mem_inFlight_of_attempt hattempt,
            hflight j m hpm (Nat.lt_succ_self m) hattempt⟩
        have hout : j ∉
            (start.after acts (m + 1)).inFlight uid ∩
              (start.after acts p).inFlight uid :=
          fun hmem => notMem_inFlight_of_attempt hattempt
            (Finset.mem_inter.mp hmem).left
        have hcard := Finset.card_lt_card (Finset.ssubset_iff_subset_ne.mpr
          ⟨hsub, fun heq => hout (by rw [heq]; exact hin)⟩)
        omega

/-!
# The call that began to list last
-/

theorem act_of_entersAt {j p : Nat} (h : EntersAt start acts j p) :
    acts[p]? = some (.proceed j) := by
  rcases h with ⟨c, c', hc, hzero, hc', hone⟩
  rcases after_cases start acts p with ⟨_, hsame⟩ | ⟨act, hact, hstep⟩
  · rw [hsame, hc] at hc'
    cases hc'
    omega
  · rcases hstep.call hc with ⟨d, hd, hmove⟩
    rw [hc'] at hd
    cases hd
    cases hmove with
    | stay => omega
    | listed => exact hact
    | created => exact hact
    | registered => exact hact

theorem mem_inFlight_of_entersAt {j p q n : Nat}
    (henters : EntersAt start acts j p) (hpq : p < q) (hqn : q ≤ n)
    (hn : j ∈ (start.after acts n).inFlight uid) :
    j ∈ (start.after acts q).inFlight uid := by
  rcases henters with ⟨_, c, _, _, hc, hone⟩
  refine mem_inFlight_between hpq hqn ?_ hn
  rw [mem_inFlight_iff] at hn ⊢
  rcases hn with ⟨d, hd, huid, _⟩
  rcases stage_after (Nat.le_trans hpq hqn) hc with ⟨d', hd', huid', _⟩
  rw [hd] at hd'
  cases hd'
  exact ⟨c, hc, huid'.symm.trans huid, hone⟩

theorem count_succ_of_entersAt (hroot : start.IsRooted root) {j p : Nat}
    (henters : EntersAt start acts j p) :
    (start.after acts (p + 1)).count root uid ≤
      (start.after acts p).count root uid := by
  rcases count_succ_cases hroot p with hle | ⟨i, ⟨hact, c, hc, hphase, _⟩, _⟩
  · exact hle
  · rw [act_of_entersAt henters] at hact
    cases hact
    rcases henters with ⟨d, _, hd, hzero, _⟩
    rw [hc] at hd
    cases hd
    simp [Admission.stage, hphase] at hzero

/-- By the act `p` a call begins to list that has tried to create a claim for
`uid` by the act `n`. -/
def EntersBy (start : Fleet ι) (acts : List (Act ι)) (uid : String)
    (n p : Nat) : Prop :=
  exists j m, m ≤ n ∧ AttemptsAt start acts uid j m ∧ EntersAt start acts j p

theorem exists_last_entry {n q : Nat} (hqn : q ≤ n)
    (hq : EntersBy start acts uid n q) :
    exists p, EntersBy start acts uid n p ∧
      forall p', p' ≤ n -> EntersBy start acts uid n p' -> p' ≤ p := by
  classical
  exact ⟨Nat.findGreatest (EntersBy start acts uid n) n,
    Nat.findGreatest_spec hqn hq, fun _ hle h => Nat.le_findGreatest hle h⟩

/-- Right after an attempt the owner is ahead of nobody by more than the number
of its calls that are ever in flight together, as far as claims are counted at
all. -/
theorem count_le_of_attempt (hkeeps : KeepsClaims start acts root)
    (hroot : start.IsRooted root) (hkeys : start.HasClaimKeys root)
    (hcalls : start.calls = #[]) {k : Nat}
    (hflight : forall m, ((start.after acts m).inFlight uid).card ≤ k)
    {j n : Nat} (hattempt : AttemptsAt start acts uid j n) {o : String}
    (hne : o ≠ uid) (hpos : 0 < start.count root o) :
    (start.after acts (n + 1)).count root uid ≤
      (start.after acts (n + 1)).count root o + k ∨
      Snapshot.maxCount ≤ (start.after acts (n + 1)).count root o := by
  have hentered {i m : Nat} (h : AttemptsAt start acts uid i m) :
      exists p, p < m ∧ EntersAt start acts i p ∧
        WithinSince start acts root uid p m := by
    rcases h with ⟨_, c, hc, hphase, rfl⟩
    exact (progress_after hkeeps hroot hkeys hcalls hc).creating hphase
  rcases hentered hattempt with ⟨q, hqn, hq, _⟩
  rcases exists_last_entry (Nat.le_of_lt hqn) ⟨j, n, Nat.le_refl n,
    hattempt, hq⟩ with
    ⟨p, hlast, hgreatest⟩
  rcases hlast with ⟨i, m, hmn, hattempt', henters⟩
  rcases hentered hattempt' with ⟨p', hp'm, henters', hwithin⟩
  have hpp' := entersAt_unique henters henters'
  subst hpp'
  have hgain : (start.after acts (n + 1)).count root uid +
      ((start.after acts (n + 1)).inFlight uid ∩
        (start.after acts (p + 1)).inFlight uid).card ≤
        (start.after acts (p + 1)).count root uid +
          ((start.after acts (p + 1)).inFlight uid).card := by
    apply count_add_inFlight_le hroot (by omega)
    -- Whoever tries later began to list by `p`, and so was in flight right
    -- after it.
    intro i' m' hpm' hm'n hattempt''
    rcases hentered hattempt'' with ⟨q', hq'm', hq', _⟩
    have hq'p : q' ≤ p :=
      hgreatest q' (by omega) ⟨i', m', by omega, hattempt'', hq'⟩
    exact mem_inFlight_of_entersAt hq' (Nat.lt_succ_of_le hq'p) hpm'
      (mem_inFlight_of_attempt hattempt'')
  have hfirst : (start.after acts (p + 1)).count root uid ≤
      (start.after acts p).count root uid :=
    count_succ_of_entersAt hroot henters
  have hlimit := hflight (p + 1)
  have hother := hwithin o hne hpos
  have hmore : (start.after acts m).count root o ≤
      (start.after acts (n + 1)).count root o :=
    hkeeps.count_le o (Nat.le_succ_of_le hmn)
  omega

end

end Fleet
end FairLease
