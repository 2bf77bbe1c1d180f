import Mathlib.Data.List.Induction
import FairLease.Claim.Fairness

/-!
# Counting the claims of a snapshot

A snapshot of claims on different resources counts the claims of every owner, up
to the largest count there is. An owner who may claim more holds no more than
any other owner in the snapshot.
-/

namespace FairLease
namespace Snapshot

/-!
# Owners
-/

theorem ownerOf?_insert (s : Snapshot) (cidr owner c : String) :
    (s.insert cidr owner).ownerOf? c = if cidr = c then some owner
      else s.ownerOf? c := by
  simp [insert, ownerOf?, Std.ExtTreeMap.getElem?_insert]

theorem ownerOf?_empty (c : String) : empty.ownerOf? c = none := by
  simp [empty, ownerOf?]

theorem ownerOf?_foldl {claims : List (String × String)} {s : Snapshot}
    {cidr owner : String}
    (h : (claims.foldl (fun s claim => s.insert claim.1 claim.2) s).ownerOf?
      cidr = some owner) :
    s.ownerOf? cidr = some owner ∨ (cidr, owner) ∈ claims := by
  induction claims generalizing s with
  | nil => exact Or.inl h
  | cons claim rest ih =>
      rw [List.foldl_cons] at h
      rcases ih h with hinsert | hmem
      · rw [ownerOf?_insert] at hinsert
        split at hinsert
        · rename_i hcidr
          cases hinsert
          exact Or.inr (by simp [← hcidr])
        · exact Or.inl hinsert
      · exact Or.inr (List.mem_cons_of_mem _ hmem)

theorem mem_of_ownerOf?_ofList {claims : List (String × String)}
    {cidr owner : String} (h : (ofList claims).ownerOf? cidr = some owner) :
    (cidr, owner) ∈ claims := by
  rcases ownerOf?_foldl h with hempty | hmem
  · rw [ownerOf?_empty] at hempty
    cases hempty
  · exact hmem

theorem ofList_append_singleton (claims : List (String × String))
    (claim : String × String) :
    ofList (claims ++ [claim]) = (ofList claims).insert claim.1 claim.2 := by
  simp [ofList]

/-!
# Counts
-/

def owned (claims : List (String × String)) (owner : String) : Nat :=
  claims.countP (fun claim => claim.2 == owner)

theorem counts_insert_of_fresh {s : Snapshot} {cidr : String}
    (h : s.ownerOf? cidr = none) (owner o : String) :
    (s.insert cidr owner).counts[o]? =
      if owner = o then some (min (s.count owner + 1) maxCount)
      else s.counts[o]? := by
  have howners : s.owners[cidr]? = none := h
  simp [insert, howners, acquire, count, Std.ExtTreeMap.getElem?_insert]

theorem counts_ofList {claims : List (String × String)}
    (hnodup : (claims.map (·.1)).Nodup) (o : String) :
    (ofList claims).counts[o]? =
      if owned claims o = 0 then none
      else some (min (owned claims o) maxCount) := by
  induction claims using List.reverseRecOn with
  | nil => simp [ofList, empty, owned]
  | append_singleton claims claim ih =>
      rw [List.map_append, List.nodup_append] at hnodup
      have hfresh : (ofList claims).ownerOf? claim.1 = none := by
        cases howner : (ofList claims).ownerOf? claim.1 with
        | none => rfl
        | some owner =>
            have hmem : claim.1 ∈ claims.map (·.1) :=
              List.mem_map_of_mem (f := (·.1)) (mem_of_ownerOf?_ofList howner)
            exact absurd rfl (hnodup.right.right _ hmem claim.1 (by simp))
      rw [ofList_append_singleton, counts_insert_of_fresh hfresh]
      have hcounts := ih hnodup.left
      by_cases ho : claim.2 = o
      · subst ho
        have hsum : owned (claims ++ [claim]) claim.2 =
            owned claims claim.2 + 1 := by
          simp [owned]
        have hcount : (ofList claims).count claim.2 =
            min (owned claims claim.2) maxCount := by
          rw [count, hcounts]
          by_cases hzero : owned claims claim.2 = 0
          · simp [hzero]
          · simp [hzero]
        rw [if_pos rfl, hsum, hcount, if_neg (Nat.succ_ne_zero _)]
        congr 1
        omega
      · have hsame : owned (claims ++ [claim]) o = owned claims o := by
          simp [owned, ho]
        rw [if_neg ho, hsame, hcounts]

theorem count_ofList {claims : List (String × String)}
    (hnodup : (claims.map (·.1)).Nodup) (o : String) :
    (ofList claims).count o = min (owned claims o) maxCount := by
  rw [count, counts_ofList hnodup]
  by_cases hzero : owned claims o = 0
  · simp [hzero]
  · simp [hzero]

/-!
# The least of the others
-/

theorem minOther?_le {s : Snapshot} {uid o : String} {n : Nat} (hne : o ≠ uid)
    (hcount : s.counts[o]? = some n) :
    exists least, s.minOther? uid = some least ∧ least ≤ n := by
  have hmem : n ∈ (s.ownerCounts.filter (fun p => p.1 != uid)).map (·.2) := by
    rw [List.mem_map]
    refine ⟨(o, n), ?_, rfl⟩
    rw [List.mem_filter]
    exact ⟨Std.ExtTreeMap.mem_toList_iff_getElem?_eq_some.mpr hcount,
      by simpa using hne⟩
  unfold minOther?
  cases hmin : ((s.ownerCounts.filter (fun p => p.1 != uid)).map
    (·.2)).min? with
  | none =>
      rw [List.min?_eq_none_iff] at hmin
      rw [hmin] at hmem
      cases hmem
  | some least =>
      exact ⟨least, rfl, (List.min?_eq_some_iff.mp hmin).right n hmem⟩

/-- Owners that hold nothing are not in a snapshot. -/
theorem minOther?_pos {claims : List (String × String)}
    (hnodup : (claims.map (·.1)).Nodup) {uid : String} {least : Nat}
    (h : (ofList claims).minOther? uid = some least) : 0 < least := by
  have hmem := (List.min?_eq_some_iff.mp h).left
  rcases List.mem_map.mp hmem with ⟨⟨o, n⟩, hn, rfl⟩
  have hcount : (ofList claims).counts[o]? = some n :=
    Std.ExtTreeMap.mem_toList_iff_getElem?_eq_some.mp
      (List.mem_filter.mp hn).left
  rw [counts_ofList hnodup] at hcount
  split at hcount
  · cases hcount
  · rename_i howned
    have hlimit : 0 < maxCount := by decide
    have hmin : min (owned claims o) maxCount = n := Option.some.inj hcount
    change 0 < n
    omega

theorem count_le_of_within
    {claims : List (String × String)} (hnodup : (claims.map (·.1)).Nodup)
    {uid o cidr : String}
    (hwithin : forall least, (ofList claims).minOther? uid = some least ->
      (ofList claims).count uid ≤ least)
    (hne : o ≠ uid) (hmem : (cidr, o) ∈ claims) :
    min (owned claims uid) maxCount ≤ min (owned claims o) maxCount := by
  have hpos : owned claims o ≠ 0 := by
    have hlt : 0 < owned claims o := by
      rw [owned, List.countP_pos_iff]
      exact ⟨(cidr, o), hmem, by simp⟩
    omega
  have hcounts := counts_ofList hnodup o
  rw [if_neg hpos] at hcounts
  rcases minOther?_le hne hcounts with ⟨least, hleast, hle⟩
  rw [← count_ofList hnodup uid]
  exact Nat.le_trans (hwithin least hleast) hle

end Snapshot
end FairLease
