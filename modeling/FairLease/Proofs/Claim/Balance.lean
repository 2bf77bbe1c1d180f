import FairLease.Proofs.Claim.Tally
import FairLease.Proofs.Run

/-!
# Balance

Owners are in balance if none of them holds more than one claim above another.
A granted claim keeps its owner within one of everybody else, but a newcomer may
upset the balance, as it starts with a single claim.
-/

namespace FairLease

/-!
# Balanced allocations
-/

namespace Allocation

/-- Any two owners of something differ by at most one. -/
def IsBalanced (m : Allocation) : Prop :=
  forall o o', 0 < m.held o -> 0 < m.held o' -> m.held o ≤ m.held o' + 1

section

variable {m : Allocation} {cidr uid : String}

theorem admits_iff_held :
    m.Admits uid <-> forall o, o ≠ uid -> 0 < m.held o ->
      m.held uid ≤ m.held o := by
  constructor
  · intro h o hne hpos
    rcases held_pos_iff.mp hpos with ⟨c, hc⟩
    exact h (c, o) (mem_toList_iff.mpr hc) hne
  · intro h claim hclaim hne
    exact h claim.2 hne (held_pos_of_owned (mem_toList_iff.mp hclaim))

theorem held_insert_self_of_free (h : m[cidr]? = none) :
    held (m.insert cidr uid) uid = m.held uid + 1 := by
  rw [held_insert_of_free h, if_pos rfl]

theorem held_insert_of_ne {o : String} (h : m[cidr]? = none) (hne : o ≠ uid) :
    held (m.insert cidr uid) o = m.held o := by
  rw [held_insert_of_free h, if_neg hne.symm, Nat.add_zero]

/-- An owner is admitted if and only if it is within one of the others
afterwards. -/
theorem admits_iff_within (h : m[cidr]? = none) :
    m.Admits uid <-> forall o, o ≠ uid -> 0 < m.held o ->
      held (m.insert cidr uid) uid ≤ held (m.insert cidr uid) o + 1 := by
  rw [admits_iff_held]
  refine forall_congr' fun o => forall_congr' fun hne =>
    forall_congr' fun _ => ?_
  rw [held_insert_self_of_free h, held_insert_of_ne h hne,
    Nat.add_le_add_iff_right]

/-- Who is admitted keeps the balance unless it is new and somebody holds
three. -/
theorem isBalanced_insert_iff (h : m[cidr]? = none) (hbalanced : m.IsBalanced)
    (hadmits : m.Admits uid) :
    IsBalanced (m.insert cidr uid) <-> 0 < m.held uid ∨ forall o, o ≠ uid ->
      m.held o ≤ 2 := by
  rw [admits_iff_held] at hadmits
  have hself : held (m.insert cidr uid) uid = m.held uid + 1 :=
    held_insert_self_of_free h
  constructor
  · intro hafter
    by_cases hpos : 0 < m.held uid
    · exact Or.inl hpos
    · refine Or.inr ?_
      intro o hne
      by_cases ho : 0 < m.held o
      · have hother := held_insert_of_ne h hne
        have hle := hafter o uid (by rw [hother]; exact ho) (by omega)
        omega
      · omega
  · intro hside o o' ho ho'
    by_cases huid : o = uid
    · by_cases huid' : o' = uid
      · rw [huid, huid']
        exact Nat.le_succ _
      · rw [held_insert_of_ne h huid'] at ho' ⊢
        have hle := hadmits o' huid' ho'
        rw [huid, hself]
        omega
    · rw [held_insert_of_ne h huid] at ho ⊢
      by_cases huid' : o' = uid
      · rw [huid', hself]
        rcases hside with hpos | htwo
        · have hle := hbalanced o uid ho hpos
          omega
        · have hle := htwo o huid
          omega
      · rw [held_insert_of_ne h huid'] at ho' ⊢
        exact hbalanced o o' ho ho'

end

end Allocation

namespace Snapshot

open Allocation

/-!
# What a snapshot says of the balance
-/

section

variable {s : Snapshot} {cidr uid : String}

theorem canClaim_iff_of_free (h : s.ownerOf? cidr = none) :
    s.canClaim uid cidr = true <->
      forall least, s.minOther? uid = some least -> s.count uid ≤ least := by
  unfold canClaim evaluate
  rw [h]
  cases hmin : s.minOther? uid with
  | none => simp [Decision.isGranted]
  | some least =>
      by_cases hle : s.count uid ≤ least
      · simp [hle, Decision.isGranted]
      · simp [hle, Decision.isGranted]

theorem IsTallied.canClaim_iff (hs : s.IsTallied) (h : s.ownerOf? cidr = none) :
    s.canClaim uid cidr = true <-> Admits s.owners uid := by
  rw [canClaim_iff_of_free h, IsShownBy.admits_iff hs]

theorem owner_of_canClaim {owner : String} (h : s.ownerOf? cidr = some owner)
    (hgranted : s.canClaim uid cidr = true) : owner = uid := by
  unfold canClaim evaluate at hgranted
  rw [h] at hgranted
  by_cases hown : owner = uid
  · exact hown
  · simp [hown, Decision.isGranted] at hgranted

theorem IsTallied.mem_counts_iff (hs : s.IsTallied) {n : Nat} :
    n ∈ s.ownerCounts.map (·.2) <-> 0 < n ∧ exists o, held s.owners o = n := by
  simp only [ownerCounts, List.mem_map, Prod.exists,
    Std.ExtTreeMap.mem_toList_iff_getElem?_eq_some, hs.counts,
    Option.ite_none_left_eq_some]
  constructor
  · rintro ⟨o, _, ⟨hne, hn⟩, rfl⟩
    rw [Option.some_inj] at hn
    exact ⟨by omega, o, hn⟩
  · rintro ⟨hpos, o, hn⟩
    exact ⟨o, n, ⟨by omega, by rw [hn]⟩, rfl⟩

theorem IsTallied.isBalanced_iff (hs : s.IsTallied) :
    s.isBalanced = true <-> IsBalanced s.owners := by
  have hmem (o : String) (hpos : 0 < held s.owners o) :
      held s.owners o ∈ s.ownerCounts.map (·.2) :=
        hs.mem_counts_iff.mpr ⟨hpos, o, rfl⟩
  simp only [isBalanced]
  cases hmax : (s.ownerCounts.map (·.2)).max? with
  | none =>
      rw [List.max?_eq_none_iff] at hmax
      simp only [true_iff]
      intro o o' ho
      have hin := hmem o ho
      rw [hmax] at hin
      cases hin
  | some most =>
      cases hmin : (s.ownerCounts.map (·.2)).min? with
      | none =>
          rw [List.min?_eq_none_iff] at hmin
          rw [hmin] at hmax
          cases hmax
      | some least =>
          rw [List.max?_eq_some_iff] at hmax
          rw [List.min?_eq_some_iff] at hmin
          simp only [decide_eq_true_eq]
          constructor
          · intro hle o o' ho ho'
            have hmost := hmax.right _ (hmem o ho)
            have hleast := hmin.right _ (hmem o' ho')
            omega
          · intro hbalanced
            rcases hs.mem_counts_iff.mp hmax.left with ⟨hpos, o, rfl⟩
            rcases hs.mem_counts_iff.mp hmin.left with ⟨hpos', o', rfl⟩
            exact hbalanced o o' hpos hpos'

theorem isTallied_insert_of_lt (hs : s.IsTallied) (hroom : s.size < maxCount)
    (cidr uid : String) :
    (s.insert cidr uid).IsTallied :=
  isTallied_insert hs (Nat.le_trans (size_insert_le s cidr uid) hroom)

theorem insert_of_owned (hs : s.IsTallied) (hroom : s.size < maxCount)
    (h : s.ownerOf? cidr = some uid) : s.insert cidr uid = s := by
  apply (isTallied_insert_of_lt hs hroom cidr uid).eq hs
  intro c
  rw [ownerOf?_insert]
  split
  · rename_i hc
    rw [← hc, h]
  · rfl

end

/-!
# Runs of granted claims
-/

def after (s : Snapshot) (run : List (String × String)) (n : Nat) : Snapshot :=
  stateAt (fun s claim => s.insert claim.1 claim.2) s run n

/-- Each claim of the run is granted when its turn comes, to somebody who held
one at the start. -/
structure Grants (s : Snapshot) (run : List (String × String)) : Prop where
  granted : forall n claim, run[n]? = some claim ->
    (s.after run n).canClaim claim.2 claim.1 = true
  established : forall claim, claim ∈ run -> 0 < owned s.claims claim.2
  room : forall n, n < run.length -> (s.after run n).size < maxCount

/-- Nobody in the run has lost anything, and the balance is kept. -/
structure Keeps (start s : Snapshot) : Prop where
  tallied : s.IsTallied
  balanced : IsBalanced s.owners
  kept : forall uid, held start.owners uid ≤ held s.owners uid

theorem Keeps.insert {start s : Snapshot} (h : Keeps start s)
    {cidr uid : String} (hroom : s.size < maxCount)
    (hgranted : s.canClaim uid cidr = true)
    (hestablished : 0 < held start.owners uid) :
    Keeps start (s.insert cidr uid) := by
  cases howner : s.ownerOf? cidr with
  | some owner =>
      rw [owner_of_canClaim howner hgranted] at howner
      rw [insert_of_owned h.tallied hroom howner]
      exact h
  | none =>
      have hadmits := (h.tallied.canClaim_iff howner).mp hgranted
      have hheld := Nat.lt_of_lt_of_le hestablished (h.kept uid)
      refine ⟨isTallied_insert_of_lt h.tallied hroom cidr uid, ?_, ?_⟩
      · exact (isBalanced_insert_iff howner h.balanced hadmits).mpr
          (Or.inl hheld)
      · intro o
        have hsum := held_insert_of_free howner uid o
        have hkept := h.kept o
        change _ ≤ held (s.owners.insert cidr uid) o
        omega

theorem Grants.keeps {s : Snapshot} {run : List (String × String)}
    (h : s.Grants run) (hs : s.IsTallied) (hbalanced : IsBalanced s.owners)
    (n : Nat) : Keeps s (s.after run n) := by
  induction n with
  | zero => exact ⟨hs, hbalanced, fun _ => Nat.le_refl _⟩
  | succ n ih =>
      cases hclaim : run[n]? with
      | none =>
          rw [after, stateAt_succ_of_none hclaim]
          exact ih
      | some claim =>
          rw [after, stateAt_succ hclaim]
          have hlt := (List.getElem?_eq_some_iff.mp hclaim).choose
          exact ih.insert (h.room n hlt) (h.granted n claim hclaim)
            (h.established claim (List.mem_of_getElem? hclaim))

/-!
# Fairness as a whole
-/

/-- For every snapshot of fewer than 2^32 - 1 claims: (1) a free resource can be
claimed if and only if this leaves the claimant within one of each other owner;
(2) the snapshot is balanced if and only if any two owners differ by at most
one; (3) a granted claim keeps the balance if and only if the claimant held
something already or nobody else holds more than two; (4) hence the balance is
kept by every run of granted claims of those who hold something at its start. -/
theorem fairness_keeps_balance
    {claims : List (String × String)} (h : (ofList claims).size < maxCount) :
    (forall uid cidr, (ofList claims).ownerOf? cidr = none ->
      ((ofList claims).canClaim uid cidr = true <->
        forall o, o ≠ uid -> 0 < owned (ofList claims).claims o ->
          owned ((ofList claims).insert cidr uid).claims uid ≤
            owned ((ofList claims).insert cidr uid).claims o + 1)) ∧
    ((ofList claims).isBalanced = true <->
      forall o o', 0 < owned (ofList claims).claims o ->
        0 < owned (ofList claims).claims o' ->
        owned (ofList claims).claims o ≤ owned (ofList claims).claims o' + 1) ∧
    (forall uid cidr, (ofList claims).ownerOf? cidr = none ->
      (ofList claims).isBalanced = true ->
      (ofList claims).canClaim uid cidr = true ->
      (((ofList claims).insert cidr uid).isBalanced = true <->
        0 < owned (ofList claims).claims uid ∨
          forall o, o ≠ uid -> owned (ofList claims).claims o ≤ 2)) ∧
    (forall run, (ofList claims).isBalanced = true ->
      (ofList claims).Grants run ->
      forall n, ((ofList claims).after run n).isBalanced = true) := by
  have htallied := isTallied_ofList (Nat.le_of_lt h)
  refine ⟨?_, htallied.isBalanced_iff, ?_, ?_⟩
  · intro uid cidr hfree
    rw [htallied.canClaim_iff hfree]
    exact admits_iff_within hfree
  · intro uid cidr hfree hbalanced hgranted
    rw [(isTallied_insert_of_lt htallied h cidr uid).isBalanced_iff]
    exact isBalanced_insert_iff hfree (htallied.isBalanced_iff.mp hbalanced)
      ((htallied.canClaim_iff hfree).mp hgranted)
  · intro run hbalanced hgrants n
    have hkeeps :=
      hgrants.keeps htallied (htallied.isBalanced_iff.mp hbalanced) n
    exact hkeeps.tallied.isBalanced_iff.mpr hkeeps.balanced

def settledClaims : List (String × String) :=
  [("a", "1"), ("b", "2")]

/-- Both owners claim more, and one of them claims its own resource again. -/
def settledRun : List (String × String) :=
  [("c", "2"), ("d", "1"), ("a", "1")]

def monopoly : List (String × String) :=
  [("a", "1"), ("b", "1"), ("c", "1")]

theorem grants_settledRun : (ofList settledClaims).Grants settledRun where
  granted := by
    intro n claim hclaim
    have hall : forall k, k < 3 -> forall claim, settledRun[k]? = some claim ->
        ((ofList settledClaims).after settledRun k).canClaim claim.2 claim.1 =
          true := by decide
    exact hall n (List.getElem?_eq_some_iff.mp hclaim).choose claim hclaim
  established := by decide
  room := by decide

theorem fairness_keeps_balance_settledRun :
    (ofList settledClaims).size < maxCount ∧
    (ofList settledClaims).Grants settledRun ∧
      ((ofList settledClaims).after settledRun 3).isBalanced = true ∧
      (ofList monopoly).isBalanced = true ∧
      (ofList monopoly).canClaim "2" "d" = true ∧
      ((ofList monopoly).insert "d" "2").isBalanced ≠ true := by
  have hsettled : (ofList settledClaims).size < maxCount := by decide
  have hmonopoly : (ofList monopoly).size < maxCount := by decide
  rcases fairness_keeps_balance hsettled with ⟨_, _, _, hrun⟩
  rcases fairness_keeps_balance hmonopoly with ⟨_, _, hnext, _⟩
  refine ⟨hsettled, grants_settledRun, hrun _ (by decide) grants_settledRun 3,
    by decide, by decide, ?_⟩
  intro hbalanced
  rcases (hnext "2" "d" (by decide) (by decide) (by decide)).mp hbalanced with
    hpos | htwo
  · exact absurd hpos (by decide)
  · exact absurd (htwo "1" (by decide)) (by decide)

end Snapshot
end FairLease
