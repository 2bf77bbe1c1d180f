import Mathlib.Data.List.Nodup
import FairLease.Proofs.Claim.Admission
import FairLease.Proofs.Claim.Snapshot
import FairLease.Store.Memory

/-!
# Allocations

An allocation says who owns what, and hands out one resource after the other by
the fairness rule. An owner is given another resource while nobody who owns
anything owns less.
-/

namespace FairLease

abbrev Allocation : Type :=
  Table String

namespace Allocation

def held (m : Allocation) (uid : String) : Nat :=
  m.toList.countP (fun claim => claim.2 == uid)

/-- Every other owner of anything holds at least as much as `uid`. -/
def Admits (m : Allocation) (uid : String) : Prop :=
  forall claim, claim ∈ m.toList -> claim.2 ≠ uid -> m.held uid ≤ m.held claim.2

instance (m : Allocation) (uid : String) : Decidable (m.Admits uid) :=
  inferInstanceAs (Decidable (forall claim, claim ∈ m.toList ->
    claim.2 ≠ uid -> _ ≤ _))

/-- Ask for a resource. Returns whether it is `uid`'s from now on. -/
def fit (m : Allocation) (uid cidr : String) : Bool × Allocation :=
  match m[cidr]? with
  | some owner => (decide (owner = uid), m)
  | none => if m.Admits uid then (true, m.insert cidr uid) else (false, m)

def lose (m : Allocation) (p : String -> Bool) : Allocation :=
  m.filter (fun cidr _ => !p cidr)

theorem getElem?_lose (m : Allocation) (p : String -> Bool) (cidr : String) :
    (m.lose p)[cidr]? = if p cidr then none else m[cidr]? := by
  rw [lose, Std.ExtTreeMap.getElem?_filter']
  cases hp : p cidr with
  | true => cases m[cidr]? <;> simp
  | false => cases m[cidr]? <;> simp

theorem nodup_toList (m : Allocation) : (m.toList.map (·.1)).Nodup := by
  rw [Std.ExtTreeMap.map_fst_toList_eq_keys]
  exact Std.ExtTreeMap.nodup_keys

theorem mem_toList_iff {m : Allocation} {claim : String × String} :
    claim ∈ m.toList <-> m[claim.1]? = some claim.2 :=
  Std.ExtTreeMap.mem_toList_iff_getElem?_eq_some

theorem held_le_size (m : Allocation) (uid : String) : m.held uid ≤ m.size := by
  rw [← Std.ExtTreeMap.length_toList]
  exact List.countP_le_length

theorem held_pos_iff {m : Allocation} {uid : String} :
    0 < m.held uid <-> exists cidr : String, m[cidr]? = some uid := by
  rw [held, List.countP_pos_iff]
  constructor
  · rintro ⟨claim, hclaim, huid⟩
    rw [mem_toList_iff, beq_iff_eq.mp huid] at hclaim
    exact ⟨claim.1, hclaim⟩
  · rintro ⟨cidr, hcidr⟩
    exact ⟨(cidr, uid), mem_toList_iff.mpr hcidr, by simp⟩

theorem fit_of_owned {m : Allocation} {uid cidr owner : String}
    (h : m[cidr]? = some owner) :
    m.fit uid cidr = (decide (owner = uid), m) := by
  rw [fit, h]

theorem fit_of_free {m : Allocation} {uid cidr : String} (h : m[cidr]? = none) :
    m.fit uid cidr = if m.Admits uid then (true, m.insert cidr uid)
      else (false, m) := by
  rw [fit, h]

theorem getElem?_insert (m : Allocation) (cidr uid c : String) :
    (m.insert cidr uid)[c]? = if cidr = c then some uid else m[c]? := by
  simp [Std.ExtTreeMap.getElem?_insert]

theorem mem_toList_insert {m : Allocation} {cidr uid : String}
    (h : m[cidr]? = none) (claim : String × String) :
    claim ∈ (m.insert cidr uid).toList <->
      claim ∈ m.toList ++ [(cidr, uid)] := by
  rw [mem_toList_iff, getElem?_insert, List.mem_append, mem_toList_iff,
    List.mem_singleton]
  by_cases hcidr : cidr = claim.1
  · subst hcidr
    rw [if_pos rfl, h]
    simp [Prod.ext_iff, eq_comm]
  · rw [if_neg hcidr]
    simp [Prod.ext_iff, Ne.symm hcidr]

theorem notMem_of_free {m : Allocation} {cidr : String} (h : m[cidr]? = none) :
    cidr ∉ m.toList.map (·.1) := by
  intro hmem
  rcases List.mem_map.mp hmem with ⟨claim, hclaim, rfl⟩
  rw [mem_toList_iff, h] at hclaim
  cases hclaim

theorem getElem?_fit {m : Allocation} {uid cidr c u : String}
    (h : (m.fit uid cidr).2[c]? = some u) :
    m[c]? = some u ∨ c = cidr := by
  unfold fit at h
  cases hm : m[cidr]? with
  | some owner =>
      rw [hm] at h
      exact Or.inl h
  | none =>
      rw [hm] at h
      by_cases hadmits : m.Admits uid
      · simp only [if_pos hadmits, getElem?_insert] at h
        split at h
        · rename_i hcidr
          exact Or.inr hcidr.symm
        · exact Or.inl h
      · rw [if_neg hadmits] at h
        exact Or.inl h

theorem size_fit_le (m : Allocation) (uid cidr : String) :
    (m.fit uid cidr).2.size ≤ m.size + 1 := by
  unfold fit
  split
  · exact Nat.le_succ m.size
  · split
    · exact Std.ExtTreeMap.size_insert_le
    · exact Nat.le_succ m.size

/-!
# Snapshots of an allocation

A snapshot has the owners of an allocation and counts what they hold. The rule
by which it is evaluated is then that of the allocation.
-/

structure IsShownBy (m : Allocation) (s : Snapshot) : Prop where
  owners : s.owners = m
  counts : forall uid, s.counts[uid]? = if m.held uid = 0 then none
    else some (m.held uid)

section

variable {m : Allocation} {s : Snapshot}

theorem IsShownBy.count (h : m.IsShownBy s) (uid : String) :
    s.count uid = m.held uid := by
  rw [Snapshot.count, h.counts]
  split
  · rename_i hzero
    rw [hzero]
    rfl
  · rfl

theorem IsShownBy.admits_iff (h : m.IsShownBy s) (uid : String) :
    m.Admits uid <-> forall least, s.minOther? uid = some least ->
      s.count uid ≤ least := by
  constructor
  · intro hadmits least hleast
    have hmem := (List.min?_eq_some_iff.mp hleast).left
    rcases List.mem_map.mp hmem with ⟨⟨owner, n⟩, hn, rfl⟩
    rcases List.mem_filter.mp hn with ⟨hentry, hne⟩
    have hcount := Std.ExtTreeMap.mem_toList_iff_getElem?_eq_some.mp hentry
    rw [h.counts] at hcount
    split at hcount
    · cases hcount
    · rename_i hheld
      rcases held_pos_iff.mp (Nat.pos_of_ne_zero hheld) with ⟨cidr, hcidr⟩
      have hle :=
        hadmits (cidr, owner) (mem_toList_iff.mpr hcidr) (by simpa using hne)
      rw [h.count, ← Option.some.inj hcount]
      exact hle
  · intro hwithin claim hclaim hne
    have hpos : 0 < m.held claim.2 :=
      held_pos_iff.mpr ⟨claim.1, mem_toList_iff.mp hclaim⟩
    have hcounts := h.counts claim.2
    rw [if_neg (Nat.ne_of_gt hpos)] at hcounts
    rcases Snapshot.minOther?_le hne hcounts with ⟨least, hleast, hle⟩
    rw [← h.count uid]
    exact Nat.le_trans (hwithin least hleast) hle

/-- A call decides by a snapshot as the allocation does. -/
theorem IsShownBy.decide_eq (h : m.IsShownBy s) (a : Admission) :
    a.decide s =
      match m[a.cidr]? with
      | some owner =>
          if owner = a.uid then .registering else .finished (.ok false)
      | none =>
          if m.Admits a.uid then .creating else .finished (.ok false) := by
  have howner : s.ownerOf? a.cidr = m[a.cidr]? := by
    rw [Snapshot.ownerOf?, h.owners]
  cases hm : m[a.cidr]? with
  | some owner =>
      rw [hm] at howner
      unfold Admission.decide Snapshot.evaluate
      rw [howner]
      by_cases hown : owner = a.uid
      · simp [hown]
      · simp [hown, Decision.isGranted]
  | none =>
      rw [hm] at howner
      by_cases hadmits : m.Admits a.uid
      · rw [if_pos hadmits]
        exact Admission.decide_of_within howner
          ((h.admits_iff a.uid).mp hadmits)
      · rw [if_neg hadmits]
        rcases Admission.decide_cases a s with
          ⟨howned, _⟩ | ⟨_, hwithin, _⟩ | hrefused
        · rw [howner] at howned
          cases howned
        · exact absurd ((h.admits_iff a.uid).mpr hwithin) hadmits
        · exact hrefused

end

/-!
# Snapshots of a list
-/

theorem ownerOf?_ofList {claims : List (String × String)}
    (hnodup : (claims.map (·.1)).Nodup) {claim : String × String}
    (hclaim : claim ∈ claims) :
    (Snapshot.ofList claims).ownerOf? claim.1 = some claim.2 := by
  induction claims using List.reverseRecOn with
  | nil => cases hclaim
  | append_singleton claims last ih =>
      rw [List.map_append, List.nodup_append] at hnodup
      rw [Snapshot.ofList_append_singleton, Snapshot.ownerOf?_insert]
      rcases List.mem_append.mp hclaim with hfront | hlast
      · have hne : last.1 ≠ claim.1 := by
          intro heq
          exact hnodup.right.right claim.1 (List.mem_map_of_mem hfront) last.1
            (by simp) heq.symm
        rw [if_neg hne]
        exact ih hnodup.left hfront
      · rw [List.mem_singleton.mp hlast, if_pos rfl]

theorem isShownBy_ofList {m : Allocation} {claims : List (String × String)}
    (hnodup : (claims.map (·.1)).Nodup)
    (hclaims : forall cidr uid, (cidr, uid) ∈ claims <-> m[cidr]? = some uid)
    (hsize : m.size < wordSize 32) : m.IsShownBy (Snapshot.ofList claims) where
  owners := by
    apply Std.ExtTreeMap.ext_getElem?
    intro cidr
    change (Snapshot.ofList claims).ownerOf? cidr = m[cidr]?
    cases hm : m[cidr]? with
    | some uid => exact ownerOf?_ofList hnodup ((hclaims cidr uid).mpr hm)
    | none =>
        cases howner : (Snapshot.ofList claims).ownerOf? cidr with
        | none => rfl
        | some uid =>
            rw [(hclaims cidr uid).mp
              (Snapshot.mem_of_ownerOf?_ofList howner)] at hm
            cases hm
  counts := by
    intro uid
    have hperm : claims.Perm m.toList := by
      rw [List.perm_ext_iff_of_nodup (List.Nodup.of_map _ hnodup)
        (List.Nodup.of_map _ m.nodup_toList)]
      intro claim
      rw [mem_toList_iff]
      exact hclaims claim.1 claim.2
    have howned : Snapshot.owned claims uid = m.held uid := hperm.countP_eq _
    have hle : m.held uid ≤ Snapshot.maxCount := by
      have hheld := m.held_le_size uid
      rw [Snapshot.maxCount]
      omega
    rw [Snapshot.counts_ofList hnodup, howned, Nat.min_eq_left hle]

end Allocation
end FairLease
