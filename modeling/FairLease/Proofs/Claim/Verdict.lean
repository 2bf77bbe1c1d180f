import Mathlib.Order.Bounds.Basic
import FairLease.Proofs.Claim.Tally

/-!
# What the last owners decide

A list of claims is read by its last owners: who owns a resource, what everybody
holds, and whether one may claim more. A snapshot of the list gives the same
answers, in whichever order claims on different resources were recorded.
-/

namespace FairLease

/-!
# Holdings as sets
-/

namespace Allocation

variable {m : Allocation}

theorem toList_sorted (m : Allocation) :
    m.toList.Pairwise (fun a b => a.1 < b.1) := by
  refine (Std.ExtTreeMap.ordered_keys_toList (t := m)).imp ?_
  intro a b hab
  exact compareOfLessAndEq_eq_lt.mp hab

theorem held_eq_card {uid : String} {cidrs : Finset String}
    (h : forall cidr, cidr ∈ cidrs <-> m[cidr]? = some uid) :
    m.held uid = cidrs.card := by
  have hnodup : ((m.toList.filter (fun claim => claim.2 == uid)).map
      (·.1)).Nodup :=
    m.nodup_toList.sublist (List.filter_sublist.map _)
  rw [held, List.countP_eq_length_filter, ← List.length_map (·.1),
    ← List.toFinset_card_of_nodup hnodup]
  congr 1
  ext cidr
  rw [h, List.mem_toFinset, List.mem_map]
  constructor
  · rintro ⟨claim, hclaim, rfl⟩
    rw [List.mem_filter, mem_toList_iff, beq_iff_eq] at hclaim
    rw [hclaim.left, hclaim.right]
  · intro hcidr
    refine ⟨(cidr, uid), ?_, rfl⟩
    rw [List.mem_filter, mem_toList_iff]
    exact ⟨hcidr, beq_self_eq_true uid⟩

theorem size_eq_card {cidrs : Finset String}
    (h : forall cidr, cidr ∈ cidrs <-> m[cidr]? ≠ none) :
    m.size = cidrs.card := by
  rw [← Std.ExtTreeMap.length_toList, ← List.length_map (·.1),
    ← List.toFinset_card_of_nodup m.nodup_toList]
  congr 1
  ext cidr
  rw [h, List.mem_toFinset, List.mem_map, Option.ne_none_iff_exists']
  constructor
  · rintro ⟨claim, hclaim, rfl⟩
    exact ⟨claim.2, mem_toList_iff.mp hclaim⟩
  · rintro ⟨owner, howner⟩
    exact ⟨(cidr, owner), mem_toList_iff.mpr howner, rfl⟩

end Allocation

namespace Snapshot

/-!
# Last owners
-/

def lastOwner? (claims : List (String × String)) (cidr : String) :
    Option String :=
  claims.reverse.lookup cidr

def claimed (claims : List (String × String)) : Finset String :=
  (claims.map (·.1)).toFinset

def holdings (claims : List (String × String)) (uid : String) : Finset String :=
  (claimed claims).filter (fun cidr => lastOwner? claims cidr = some uid)

def otherCounts (claims : List (String × String)) (uid : String) : Set Nat :=
  {n | exists owner, owner ≠ uid ∧ (holdings claims owner).Nonempty ∧
    (holdings claims owner).card = n}

/-- What the last owners mean for a request of `uid` for a resource. -/
inductive Verdict (claims : List (String × String)) (uid cidr : String) :
    Decision -> Prop where
  | alreadyOwned : lastOwner? claims cidr = some uid ->
      Verdict claims uid cidr .alreadyOwned
  | takenBy {owner : String} :
      lastOwner? claims cidr = some owner -> owner ≠ uid ->
        Verdict claims uid cidr (.takenBy owner)
  | unconstrained :
      lastOwner? claims cidr = none ->
      (forall owner, owner ≠ uid -> holdings claims owner = ∅) ->
      Verdict claims uid cidr .unconstrained
  | withinBound {least : Nat} :
      lastOwner? claims cidr = none -> IsLeast (otherCounts claims uid) least ->
      (holdings claims uid).card ≤ least ->
      Verdict claims uid cidr (.withinBound (holdings claims uid).card least)
  | exceedsBound {least : Nat} :
      lastOwner? claims cidr = none -> IsLeast (otherCounts claims uid) least ->
      least < (holdings claims uid).card ->
      Verdict claims uid cidr (.exceedsBound (holdings claims uid).card least)

section

variable {claims : List (String × String)} {cidr uid : String}

theorem lastOwner?_append_singleton (claims : List (String × String))
    (claim : String × String) (cidr : String) :
    lastOwner? (claims ++ [claim]) cidr =
      if claim.1 = cidr then some claim.2 else lastOwner? claims cidr := by
  rw [lastOwner?, List.reverse_concat, List.lookup_cons]
  by_cases hcidr : claim.1 = cidr
  · simp [hcidr]
  · simp [hcidr, Ne.symm hcidr, beq_eq_false_iff_ne.mpr, lastOwner?]

theorem lastOwner?_eq_none_iff :
    lastOwner? claims cidr = none <-> cidr ∉ claimed claims := by
  rw [lastOwner?, List.lookup_eq_none_iff, claimed, List.mem_toFinset,
    List.mem_map]
  constructor
  · rintro h ⟨claim, hclaim, rfl⟩
    exact absurd (h claim (List.mem_reverse.mpr hclaim)) (by simp)
  · intro h claim hclaim
    rw [bne_iff_ne]
    rintro rfl
    exact h ⟨claim, List.mem_reverse.mp hclaim, rfl⟩

theorem mem_holdings_iff :
    cidr ∈ holdings claims uid <-> lastOwner? claims cidr = some uid := by
  rw [holdings, Finset.mem_filter, and_iff_right_iff_imp]
  intro howner
  rw [← not_not (a := cidr ∈ claimed claims), ← lastOwner?_eq_none_iff, howner]
  exact Option.some_ne_none uid

/-!
# The snapshot of a list
-/

theorem ownerOf?_ofList (claims : List (String × String)) (cidr : String) :
    (ofList claims).ownerOf? cidr = lastOwner? claims cidr := by
  induction claims using List.reverseRecOn with
  | nil => exact ownerOf?_empty cidr
  | append_singleton claims claim ih =>
      rw [ofList_append_singleton, ownerOf?_insert,
        lastOwner?_append_singleton, ih]

theorem held_ofList (claims : List (String × String)) (uid : String) :
    Allocation.held (ofList claims).owners uid =
      (holdings claims uid).card := by
  apply Allocation.held_eq_card
  intro cidr
  rw [mem_holdings_iff, ← ownerOf?_ofList, ownerOf?]

theorem size_ofList (claims : List (String × String)) :
    (ofList claims).size = (claimed claims).card := by
  apply Allocation.size_eq_card
  intro cidr
  change _ <-> (ofList claims).ownerOf? cidr ≠ none
  rw [ownerOf?_ofList, Ne, lastOwner?_eq_none_iff, not_not]

theorem claims_sorted (s : Snapshot) :
    s.claims.Pairwise (fun a b => a.1 < b.1) :=
  Allocation.toList_sorted s.owners

theorem mem_claims_iff {s : Snapshot} {claim : String × String} :
    claim ∈ s.claims <-> s.ownerOf? claim.1 = some claim.2 :=
  Allocation.mem_toList_iff

theorem nodup_ownerCounts (s : Snapshot) : (s.ownerCounts.map (·.1)).Nodup := by
  rw [ownerCounts, Std.ExtTreeMap.map_fst_toList_eq_keys]
  exact Std.ExtTreeMap.nodup_keys

theorem lastOwner?_eq_some_iff_mem (hnodup : (claims.map (·.1)).Nodup) :
    lastOwner? claims cidr = some uid <-> (cidr, uid) ∈ claims := by
  rw [← ownerOf?_ofList]
  exact ⟨mem_of_ownerOf?_ofList, Allocation.ownerOf?_ofList hnodup⟩

theorem lastOwner?_perm {others : List (String × String)}
    (hperm : claims.Perm others) (hnodup : (claims.map (·.1)).Nodup)
    (cidr : String) :
    lastOwner? claims cidr = lastOwner? others cidr := by
  have hnodup' : (others.map (·.1)).Nodup :=
    (hperm.map (·.1)).nodup_iff.mp hnodup
  apply Option.ext
  intro owner
  rw [lastOwner?_eq_some_iff_mem hnodup, lastOwner?_eq_some_iff_mem hnodup',
    hperm.mem_iff]

end

section

variable {s : Snapshot}

theorem IsTallied.mem_ownerCounts_iff (h : s.IsTallied)
    {uid : String} {n : Nat} :
    (uid, n) ∈ s.ownerCounts <-> n = Allocation.held s.owners uid ∧ 0 < n := by
  rw [ownerCounts, Std.ExtTreeMap.mem_toList_iff_getElem?_eq_some, h.counts]
  by_cases hzero : Allocation.held s.owners uid = 0
  · rw [if_pos hzero, hzero]
    constructor
    · intro hnone
      cases hnone
    · rintro ⟨rfl, hpos⟩
      exact absurd hpos (Nat.lt_irrefl 0)
  · rw [if_neg hzero, Option.some_inj, eq_comm]
    refine (and_iff_left_of_imp ?_).symm
    rintro rfl
    exact Nat.pos_of_ne_zero hzero

theorem IsTallied.mem_others_iff (h : s.IsTallied) {uid : String} {n : Nat} :
    n ∈ (s.ownerCounts.filter (fun p => p.1 != uid)).map (·.2) <->
      exists owner, owner ≠ uid ∧ 0 < n ∧
        Allocation.held s.owners owner = n := by
  simp only [List.mem_map, List.mem_filter, Prod.exists,
    h.mem_ownerCounts_iff, bne_iff_ne]
  constructor
  · rintro ⟨owner, _, ⟨⟨hn, hpos⟩, hne⟩, rfl⟩
    exact ⟨owner, hne, hpos, hn.symm⟩
  · rintro ⟨owner, hne, hpos, hn⟩
    exact ⟨owner, n, ⟨⟨hn.symm, hpos⟩, hne⟩, rfl⟩

end

/-!
# Decisions
-/

section

variable {claims : List (String × String)} {uid cidr : String}

theorem otherCounts_eq_empty_iff :
    otherCounts claims uid = ∅ <-> forall owner, owner ≠ uid ->
      holdings claims owner = ∅ := by
  rw [Set.eq_empty_iff_forall_notMem]
  constructor
  · intro h owner hne
    rw [← Finset.not_nonempty_iff_eq_empty]
    intro hsome
    exact h _ ⟨owner, hne, hsome, rfl⟩
  · rintro h n ⟨owner, hne, hsome, _⟩
    exact hsome.ne_empty (h owner hne)

theorem notMem_otherCounts
    (h : forall owner, owner ≠ uid -> holdings claims owner = ∅) (n : Nat) :
    n ∉ otherCounts claims uid := by
  rw [otherCounts_eq_empty_iff.mpr h]
  exact Set.notMem_empty n

theorem mem_otherCounts_iff (h : (ofList claims).IsTallied) {n : Nat} :
    n ∈ otherCounts claims uid <->
      n ∈ ((ofList claims).ownerCounts.filter (fun p => p.1 != uid)).map
        (·.2) := by
  simp only [h.mem_others_iff, otherCounts, Set.mem_ofPred_eq, held_ofList,
    ← Finset.card_pos]
  constructor
  · rintro ⟨owner, hne, hpos, rfl⟩
    exact ⟨owner, hne, hpos, rfl⟩
  · rintro ⟨owner, hne, hpos, rfl⟩
    exact ⟨owner, hne, hpos, rfl⟩

theorem minOther?_ofList_eq_some_iff (h : (ofList claims).IsTallied)
    {least : Nat} :
    (ofList claims).minOther? uid = some least <->
      IsLeast (otherCounts claims uid) least := by
  rw [minOther?, List.min?_eq_some_iff]
  simp only [← mem_otherCounts_iff h]
  rfl

theorem minOther?_ofList_eq_none_iff (h : (ofList claims).IsTallied) :
    (ofList claims).minOther? uid = none <->
      forall owner, owner ≠ uid -> holdings claims owner = ∅ := by
  rw [← otherCounts_eq_empty_iff, minOther?, List.min?_eq_none_iff,
    List.eq_nil_iff_forall_not_mem, Set.eq_empty_iff_forall_notMem]
  simp only [← mem_otherCounts_iff h]

/-- A request is decided as the last owners say. -/
theorem verdict_evaluate (h : (ofList claims).IsTallied) (uid cidr : String) :
    Verdict claims uid cidr ((ofList claims).evaluate uid cidr) := by
  have hcount : (ofList claims).count uid = (holdings claims uid).card := by
    rw [Allocation.IsShownBy.count h, held_ofList]
  unfold evaluate
  rw [ownerOf?_ofList]
  cases howner : lastOwner? claims cidr with
  | some owner =>
      by_cases hown : owner = uid
      · subst hown
        simpa using Verdict.alreadyOwned howner
      · simpa [hown] using Verdict.takenBy howner hown
  | none =>
      cases hmin : (ofList claims).minOther? uid with
      | none => exact Verdict.unconstrained howner ((minOther?_ofList_eq_none_iff h).mp hmin)
      | some least =>
          have hleast := (minOther?_ofList_eq_some_iff h).mp hmin
          simp only [hcount]
          split
          · rename_i hle
            exact Verdict.withinBound howner hleast hle
          · rename_i hlt
            exact Verdict.exceedsBound howner hleast (Nat.lt_of_not_le hlt)

theorem Verdict.unique {d d' : Decision} (h : Verdict claims uid cidr d)
    (h' : Verdict claims uid cidr d') : d = d' := by
  cases h with
  | alreadyOwned howner =>
      cases h' with
      | alreadyOwned => rfl
      | takenBy howner' hne =>
          rw [howner] at howner'
          exact absurd (Option.some.inj howner').symm hne
      | _ howner' => simp [howner] at howner'
  | takenBy howner hne =>
      cases h' with
      | alreadyOwned howner' =>
          rw [howner] at howner'
          exact absurd (Option.some.inj howner') hne
      | takenBy howner' =>
          rw [howner] at howner'
          rw [Option.some.inj howner']
      | _ howner' => simp [howner] at howner'
  | unconstrained howner hnone =>
      cases h' with
      | unconstrained => rfl
      | withinBound _ hleast =>
          exact absurd hleast.left (notMem_otherCounts hnone _)
      | exceedsBound _ hleast =>
          exact absurd hleast.left (notMem_otherCounts hnone _)
      | _ howner' => simp [howner] at howner'
  | withinBound howner hleast hle =>
      cases h' with
      | unconstrained _ hnone =>
          exact absurd hleast.left (notMem_otherCounts hnone _)
      | withinBound _ hleast' => rw [hleast.unique hleast']
      | exceedsBound _ hleast' hlt =>
          rw [hleast.unique hleast'] at hle
          omega
      | _ howner' => simp [howner] at howner'
  | exceedsBound howner hleast hlt =>
      cases h' with
      | unconstrained _ hnone =>
          exact absurd hleast.left (notMem_otherCounts hnone _)
      | withinBound _ hleast' hle =>
          rw [hleast.unique hleast'] at hlt
          omega
      | exceedsBound _ hleast' => rw [hleast.unique hleast']
      | _ howner' => simp [howner] at howner'

theorem evaluate_eq_iff (h : (ofList claims).IsTallied) {d : Decision} :
    (ofList claims).evaluate uid cidr = d <-> Verdict claims uid cidr d := by
  constructor
  · rintro rfl
    exact verdict_evaluate h uid cidr
  · intro hd
    exact (verdict_evaluate h uid cidr).unique hd

theorem isTallied_of_length_lt (h : claims.length < wordSize 32) :
    (ofList claims).IsTallied :=
  isTallied_ofList (Nat.le_trans (size_ofList_le claims)
    (Nat.le_sub_one_of_lt h))

theorem ofList_eq_iff {others : List (String × String)}
    (h : (ofList claims).IsTallied) (h' : (ofList others).IsTallied) :
    ofList claims = ofList others <->
      forall cidr, lastOwner? claims cidr = lastOwner? others cidr := by
  constructor
  · intro heq cidr
    rw [← ownerOf?_ofList, heq, ownerOf?_ofList]
  · intro howners
    apply h.eq h'
    intro cidr
    rw [ownerOf?_ofList, ownerOf?_ofList, howners]

end

/-!
# Snapshots as a whole
-/

/-- The snapshot of fewer than 2^32 claims says what their last owners say: (1)
who owns a resource, (2) all claims in the order of the resources, and (3) how
many they are; (4) how many resources everybody holds, and (5) who holds any.
(6) Two snapshots are equal if and only if their last owners are, so that (7)
the order of claims on different resources does not matter. (8) A request is
decided by its owner, the exact number of the requester and the exact minimum of
the others. -/
theorem snapshot_means_last_owners
    {claims : List (String × String)} (h : claims.length < wordSize 32) :
    (forall cidr, (ofList claims).ownerOf? cidr = lastOwner? claims cidr) ∧
    ((ofList claims).claims.Pairwise (fun a b => a.1 < b.1) ∧
      forall claim, claim ∈ (ofList claims).claims <->
        lastOwner? claims claim.1 = some claim.2) ∧
    (ofList claims).size = (claimed claims).card ∧
    (forall uid, (ofList claims).count uid = (holdings claims uid).card) ∧
    (((ofList claims).ownerCounts.map (·.1)).Nodup ∧
      forall uid n, (uid, n) ∈ (ofList claims).ownerCounts <->
        n = (holdings claims uid).card ∧ 0 < n) ∧
    (forall others, others.length < wordSize 32 ->
      ((ofList claims == ofList others) = true <->
        forall cidr, lastOwner? claims cidr = lastOwner? others cidr)) ∧
    (forall others, claims.Perm others -> (claims.map (·.1)).Nodup ->
      (ofList claims == ofList others) = true) ∧
    (forall uid cidr d,
      (ofList claims).evaluate uid cidr = d <-> Verdict claims uid cidr d) := by
  have htallied := isTallied_of_length_lt h
  refine ⟨ownerOf?_ofList claims, ⟨claims_sorted _, ?_⟩, size_ofList claims, ?_,
    ⟨nodup_ownerCounts _, ?_⟩, ?_, ?_, fun uid cidr d =>
      evaluate_eq_iff htallied⟩
  · intro claim
    rw [mem_claims_iff, ownerOf?_ofList]
  · intro uid
    rw [Allocation.IsShownBy.count htallied, held_ofList]
  · intro uid n
    rw [htallied.mem_ownerCounts_iff, held_ofList]
  · intro others hothers
    rw [beq_eq_true_iff,
      ofList_eq_iff htallied (isTallied_of_length_lt hothers)]
  · intro others hperm hnodup
    rw [hperm.length_eq] at h
    rw [beq_eq_true_iff, ofList_eq_iff htallied (isTallied_of_length_lt h)]
    exact lastOwner?_perm hperm hnodup

/-- The first resource changes its owner, who is left with one claim. -/
def reassigned : List (String × String) :=
  [("a", "1"), ("b", "2"), ("a", "2"), ("c", "1")]

theorem snapshot_means_last_owners_reassigned :
    reassigned.length < wordSize 32 ∧
    (ofList reassigned).ownerOf? "a" = some "2" ∧
      (ofList reassigned).count "1" = 1 ∧
      ("2", 2) ∈ (ofList reassigned).ownerCounts ∧
      Verdict reassigned "2" "d" (.exceedsBound 2 1) ∧
      Verdict reassigned "1" "d" (.withinBound 1 2) ∧
      (forall cidr, lastOwner? reassigned cidr =
        lastOwner? [("c", "1"), ("b", "2"), ("a", "2")] cidr) := by
  have hlength : reassigned.length < wordSize 32 := by decide
  rcases snapshot_means_last_owners hlength with
    ⟨howner, _, _, hcount, ⟨_, hcounts⟩, hequal, _, hdecision⟩
  refine ⟨hlength, ?_, ?_, ?_, ?_, ?_, ?_⟩
  · rw [howner]
    decide
  · rw [hcount]
    decide
  · exact (hcounts "2" 2).mpr (by decide)
  · exact (hdecision "2" "d" _).mp (by decide)
  · exact (hdecision "1" "d" _).mp (by decide)
  · exact (hequal _ (by decide)).mp (by decide)

end Snapshot
end FairLease
