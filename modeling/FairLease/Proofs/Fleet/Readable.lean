import FairLease.Proofs.Fleet.Fairness

/-!
# Claims that can be read

The root itself is a key that names no resource. It would come first in every
listing, so that no call gets past its first page while the key is there, and no
call creates it.
-/

namespace FairLease
namespace Fleet

open MemoryStore

variable {ι : Type} [DecidableEq ι]

/-!
# Valid names
-/

def HasValidName (a : Admission) : Prop :=
  (exists e, a.phase = .finished (.error e)) ∨ ClaimKey.defect? a.cidr = none

theorem hasValidName_attempt (m : Manager) (uid cidr : String) :
    HasValidName (m.attempt uid cidr) := by
  rw [Manager.attempt, Admission.start]
  cases hentry : Admission.entryError? m.isCancelled uid cidr with
  | some e => exact Or.inl ⟨e, rfl⟩
  | none =>
      refine Or.inr ?_
      unfold Admission.entryError? at hentry
      split at hentry
      · cases hentry
      · split at hentry
        · cases hentry
        · rename_i hvalid
          exact hvalid

omit [DecidableEq ι] in
theorem Call.Move.hasValidName {f : Fleet ι} {j : Nat} {act : Act ι}
    {c c' : Call ι}
    (h : Call.Move f j act c c') (hc : HasValidName c.admission) :
    HasValidName c'.admission := by
  have hcidr := h.request_eq.right.right
  rcases hc with ⟨e, hfailed⟩ | hvalid
  · cases h with
    | stay => exact Or.inl ⟨e, hfailed⟩
    | listed hphase | created hphase | registered hphase =>
        rw [hfailed] at hphase
        cases hphase
  · exact Or.inr (by rw [hcidr, hvalid])

section

variable {root : String} {start : Fleet ι} {acts : List (Act ι)}

theorem hasValidName_after (hcalls : start.calls = #[]) {j n : Nat} {c : Call ι}
    (hc : (start.after acts n).calls[j]? = some c) :
    HasValidName c.admission := by
  induction n generalizing c with
  | zero =>
      rw [after, stateAt_zero, hcalls] at hc
      simp at hc
  | succ n ih =>
      rcases after_cases start acts n with ⟨_, hsame⟩ | ⟨act, _, hstep⟩
      · rw [hsame] at hc
        exact ih hc
      · rcases hstep.call_cases hc with
          ⟨c', hc', hmove⟩ | ⟨i, uid, cidr, _, _, rfl⟩
        · exact hmove.hasValidName (ih hc')
        · exact hasValidName_attempt _ uid cidr

/-!
# The key of the root
-/

theorem live?_root_of_entersAt (hroot : start.IsRooted root) {j p : Nat}
    (henters : EntersAt start acts j p) :
    (start.after acts p).store.live? (start.after acts p).now root = none := by
  have hroot' : (start.after acts p).IsRooted root := isRooted_after hroot p
  rcases henters with ⟨c, c', hc, hzero, hc', hone⟩
  rcases after_cases start acts p with ⟨_, hsame⟩ | ⟨act, _, hstep⟩
  · rw [hsame, hc] at hc'
    cases hc'
    omega
  · rcases hstep.call hc with ⟨d, hd, hmove⟩
    rw [hc'] at hd
    cases hd
    cases hmove with
    | stay => omega
    | created hphase => simp [Admission.stage, hphase] at hzero
    | registered hphase => simp [Admission.stage, hphase] at hzero
    | @listed _ found token hphase =>
        have hfirst : token = none := by
          cases token with
          | none => rfl
          | some token => simp [Admission.stage, hphase] at hzero
        subst hfirst
        rcases Admission.listed_cases hphase ((start.after acts p).settings c)
          ((start.after acts p).store.scan (start.after acts p).now
            (Listing.request ((start.after acts p).settings c) none)).1 with
          ⟨e, herror⟩ | ⟨all, hcollect, _⟩
        · simp [Admission.stage, herror] at hone
        · cases hlive : (start.after acts p).store.live?
            (start.after acts p).now root with
          | none => rfl
          | some e =>
              have hlead : (Listing.request ((start.after acts p).settings c)
                  none).lead = root :=
                hroot' c.member
              rw [← hlead] at hlive
              rcases Listing.mem_page_of_lead hlive rfl with ⟨kv, hkv, hkey⟩
              rcases Listing.readable_of_collect hcollect hkv with ⟨cidr, hcidr⟩
              rw [hkey] at hcidr
              exact absurd hcidr (ClaimKey.toCidr_root_ne_ok _ cidr)

theorem live?_root_after (hroot : start.IsRooted root)
    (hcalls : start.calls = #[]) {p n : Nat}
    (hpn : p ≤ n)
    (hp : (start.after acts p).store.live? (start.after acts p).now
      root = none) :
    (start.after acts n).store.live? (start.after acts n).now root = none := by
  induction hpn with
  | refl => exact hp
  | @step n _ ih =>
      rcases after_cases start acts n with ⟨_, hsame⟩ | ⟨act, _, hstep⟩
      · change (start.after acts (n + 1)).store.live?
          (start.after acts (n + 1)).now root = none
        rw [hsame]
        exact ih
      · cases hlive :
            (start.after acts (n + 1)).store.live?
              (start.after acts (n + 1)).now root with
        | none => rfl
        | some e =>
            rcases hstep.holds_before (isRooted_after hroot n) ⟨e,
              hlive, rfl⟩ with
              ⟨e', hlive', _⟩ | ⟨j, c, _, hc, hphase, _, hkey⟩
            · rw [ih] at hlive'
              cases hlive'
            · rcases hasValidName_after hcalls hc with ⟨e', hfailed⟩ | hvalid
              · rw [hphase] at hfailed
                cases hfailed
              · exact absurd hkey (ClaimKey.ofCidr_ne_root hvalid)

omit [DecidableEq ι] in
theorem snapshot_of_live?_root {f : Fleet ι} (hkeys : f.HasClaimKeys root)
    (hnone : f.store.live? f.now root = none) :
    exists s, f.snapshot root = .ok s := by
  apply Listing.collect_of_readable
  intro kv hkv
  rcases mem_claims hkv with ⟨hlead, e, hlive, _⟩
  apply ClaimKey.toCidr_of_ne_root
    (hkeys _ _ (live?_eq_some_iff.mp hlive).left hlead)
  intro hkey
  rw [hkey, hnone] at hlive
  cases hlive

/-- Right after an attempt all claims can be read. -/
theorem snapshot_of_attempt (hkeeps : KeepsClaims start acts root)
    (hroot : start.IsRooted root) (hkeys : start.HasClaimKeys root)
    (hcalls : start.calls = #[]) {uid : String} {j n : Nat}
    (hattempt : AttemptsAt start acts uid j n) :
    exists s, (start.after acts (n + 1)).snapshot root = .ok s := by
  rcases hattempt with ⟨_, c, hc, hphase, _⟩
  rcases (progress_after hkeeps hroot hkeys hcalls hc).creating hphase with
    ⟨p, hp, henters, _⟩
  have hnone := live?_root_of_entersAt hroot henters
  exact snapshot_of_live?_root (hasClaimKeys_after hroot hkeys (n + 1))
    (live?_root_after hroot hcalls (Nat.le_succ_of_le (Nat.le_of_lt hp)) hnone)

end

end Fleet
end FairLease
