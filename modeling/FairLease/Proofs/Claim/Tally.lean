import Mathlib.Data.Finset.Card
import Mathlib.Order.Bounds.Defs
import FairLease.Proofs.Claim.Allocation

/-!
# The tally of a snapshot

Of several claims on one resource the last one counts, and a snapshot keeps the
number of claims of every owner up to date while it replaces the others. What
it says of a list of claims is what their last owners say.
-/

namespace FairLease

/-!
# What an insertion does to the holdings
-/

namespace Allocation

variable {m : Allocation} {cidr uid owner : String}

theorem held_insert_of_free (h : m[cidr]? = none) (uid o : String) :
    held (m.insert cidr uid) o = m.held o + if uid = o then 1 else 0 := by
  have hfresh := notMem_of_free h
  have hnodup : (m.toList ++ [(cidr, uid)]).Nodup := by
    apply List.Nodup.of_map (·.1)
    rw [List.map_append, List.nodup_append]
    refine ⟨m.nodup_toList, by simp, ?_⟩
    intro c hc c' hc'
    rw [List.map_singleton, List.mem_singleton] at hc'
    rintro rfl
    rw [hc'] at hc
    exact hfresh hc
  have hperm : (m.insert cidr uid).toList.Perm (m.toList ++ [(cidr, uid)]) := by
    rw [List.perm_ext_iff_of_nodup
      (List.Nodup.of_map _ (nodup_toList _)) hnodup]
    exact mem_toList_insert h
  rw [held, hperm.countP_eq, List.countP_append, List.countP_singleton, held]
  simp

theorem insert_erase (m : Allocation) (cidr uid : String) :
    (m.erase cidr).insert cidr uid = m.insert cidr uid := by
  apply Std.ExtTreeMap.ext_getElem?
  intro c
  rw [getElem?_insert, getElem?_insert]
  by_cases hc : cidr = c
  · simp [hc]
  · simp [hc, Std.ExtTreeMap.getElem?_erase]

theorem insert_self (h : m[cidr]? = some owner) : m.insert cidr owner = m := by
  apply Std.ExtTreeMap.ext_getElem?
  intro c
  rw [getElem?_insert]
  split
  · rename_i hc
    rw [← hc, h]
  · rfl

theorem getElem?_erase_self (m : Allocation) (cidr : String) :
    (m.erase cidr)[cidr]? = none := by
  simp

theorem held_insert_of_owned (h : m[cidr]? = some owner) (uid o : String) :
    held (m.insert cidr uid) o + (if owner = o then 1 else 0) =
      m.held o + if uid = o then 1 else 0 := by
  have hbefore := held_insert_of_free (m.getElem?_erase_self cidr) owner o
  have hafter := held_insert_of_free (m.getElem?_erase_self cidr) uid o
  rw [insert_erase, insert_self h] at hbefore
  rw [insert_erase] at hafter
  omega

theorem held_pos_of_owned (h : m[cidr]? = some owner) : 0 < m.held owner :=
  held_pos_iff.mpr ⟨cidr, h⟩

end Allocation

namespace Snapshot

/-!
# Counts as a tally

Owners of nothing are not counted. Giving up and taking a claim keep the tally,
the latter as long as the new count has a place.
-/

def Tallies (counts : Table Nat) (held : String -> Nat) : Prop :=
  forall uid, counts[uid]? = if held uid = 0 then none else some (held uid)

section

variable {counts : Table Nat} {held held' : String -> Nat} {owner : String}

theorem Tallies.eq {counts' : Table Nat} (h : Tallies counts held)
    (h' : Tallies counts' held) :
    counts = counts' := by
  apply Std.ExtTreeMap.ext_getElem?
  intro uid
  rw [h uid, h' uid]

theorem Tallies.release (h : Tallies counts held) (howner : held owner ≠ 0)
    (hheld : forall o, held' o + (if owner = o then 1 else 0) = held o) :
    Tallies (release counts owner) held' := by
  intro o
  have ho := hheld o
  have hself := hheld owner
  rw [if_pos rfl] at hself
  unfold Snapshot.release
  rw [h owner, if_neg howner]
  by_cases hlast : held owner ≤ 1
  · simp only [hlast, if_true, Std.ExtTreeMap.getElem?_erase,
      Std.LawfulEqCmp.compare_eq_iff_eq]
    by_cases heq : owner = o
    · subst heq
      rw [if_pos rfl, if_pos (by omega)]
    · rw [if_neg heq, Nat.add_zero] at ho
      rw [if_neg heq, h o, ho]
  · simp only [hlast, if_false, Std.ExtTreeMap.getElem?_insert,
      Std.LawfulEqCmp.compare_eq_iff_eq]
    by_cases heq : owner = o
    · subst heq
      rw [if_pos rfl, if_neg (by omega)]
      congr 1
      omega
    · rw [if_neg heq, Nat.add_zero] at ho
      rw [if_neg heq, h o, ho]

theorem Tallies.release_one (h : Tallies counts held) (hpos : 0 < held owner) :
    Tallies (Snapshot.release counts owner)
      (fun o => held o - if owner = o then 1 else 0) := by
  refine h.release (Nat.ne_of_gt hpos) ?_
  intro o
  by_cases ho : owner = o
  · subst ho
    simp only [if_true]
    omega
  · simp [ho]

theorem Tallies.acquire (h : Tallies counts held)
    (hheld : forall o, held' o = held o + if owner = o then 1 else 0)
    (hroom : held' owner ≤ maxCount) :
    Tallies (acquire counts owner) held' := by
  intro o
  have hself := hheld owner
  rw [if_pos rfl] at hself
  have hcount : counts[owner]?.getD 0 = held owner := by
    rw [h owner]
    split
    · rename_i hzero
      rw [hzero]
      rfl
    · rfl
  simp only [Snapshot.acquire, Std.ExtTreeMap.getElem?_insert,
    Std.LawfulEqCmp.compare_eq_iff_eq]
  by_cases heq : owner = o
  · subst heq
    rw [if_pos rfl, hcount, ← hself, Nat.min_eq_left hroom, if_neg (by omega)]
  · rw [if_neg heq, h o, hheld o, if_neg heq, Nat.add_zero]

end

/-!
# Snapshots with a right tally
-/

/-- The counts of a snapshot are those of its own claims. -/
def IsTallied (s : Snapshot) : Prop :=
  Allocation.IsShownBy s.owners s

variable {s : Snapshot}

theorem isTallied_iff :
    s.IsTallied <-> Tallies s.counts (Allocation.held s.owners) :=
  ⟨fun h => h.counts, fun h => ⟨rfl, h⟩⟩

theorem isTallied_insert (h : s.IsTallied) {cidr uid : String}
    (hroom : (s.insert cidr uid).size ≤ maxCount) :
    (s.insert cidr uid).IsTallied := by
  rw [isTallied_iff] at h ⊢
  have hheld : Allocation.held (s.insert cidr uid).owners uid ≤ maxCount :=
    Nat.le_trans (Allocation.held_le_size _ uid) hroom
  cases hcidr : s.owners[cidr]? with
  | none =>
      have hcounts : (s.insert cidr uid).counts =
          Snapshot.acquire s.counts uid := by
        simp [insert, hcidr]
      rw [hcounts]
      exact h.acquire (Allocation.held_insert_of_free hcidr uid) hheld
  | some owner =>
      have hcounts :
          (s.insert cidr uid).counts = Snapshot.acquire
            (Snapshot.release s.counts owner) uid := by
        simp [insert, hcidr]
      have hpos := Allocation.held_pos_of_owned hcidr
      have hsum := Allocation.held_insert_of_owned hcidr uid
      rw [hcounts]
      refine (h.release_one hpos).acquire ?_ hheld
      intro o
      have ho := hsum o
      change Allocation.held (s.insert cidr uid).owners o + _ = _ at ho
      by_cases howner : owner = o
      · subst howner
        simp only [if_true] at ho ⊢
        omega
      · simpa [howner] using ho

theorem size_le_insert (s : Snapshot) (cidr uid : String) :
    s.size ≤ (s.insert cidr uid).size :=
  Std.ExtTreeMap.size_le_size_insert

theorem size_insert_le (s : Snapshot) (cidr uid : String) :
    (s.insert cidr uid).size ≤ s.size + 1 :=
  Std.ExtTreeMap.size_insert_le

theorem size_ofList_le (claims : List (String × String)) :
    (ofList claims).size ≤ claims.length := by
  induction claims using List.reverseRecOn with
  | nil => exact Nat.le_refl 0
  | append_singleton claims claim ih =>
      rw [ofList_append_singleton, List.length_append, List.length_singleton]
      exact Nat.le_trans (size_insert_le _ _ _) (Nat.succ_le_succ ih)

/-- A snapshot never had more claims than it has, so its counts were exact all
along. -/
theorem isTallied_ofList {claims : List (String × String)}
    (h : (ofList claims).size ≤ maxCount) : (ofList claims).IsTallied := by
  induction claims using List.reverseRecOn with
  | nil =>
      rw [isTallied_iff]
      intro uid
      simp [ofList, empty, Allocation.held]
  | append_singleton claims claim ih =>
      rw [ofList_append_singleton] at h ⊢
      exact isTallied_insert (ih (Nat.le_trans (size_le_insert _ _ _) h)) h

/-- The owners decide the counts. -/
theorem IsTallied.eq {t : Snapshot} (hs : s.IsTallied) (ht : t.IsTallied)
    (h : forall cidr, s.ownerOf? cidr = t.ownerOf? cidr) : s = t := by
  rcases s with ⟨owners, counts⟩
  rcases t with ⟨owners', counts'⟩
  have howners : owners = owners' :=
    Std.ExtTreeMap.ext_getElem? (fun {cidr} => h cidr)
  subst howners
  rw [isTallied_iff] at hs ht
  exact congrArg (Snapshot.mk owners) (hs.eq ht)

theorem beq_eq_true_iff {t : Snapshot} : (s == t) = true <-> s = t := by
  rcases s with ⟨owners, counts⟩
  rcases t with ⟨owners', counts'⟩
  change (owners.toList == owners'.toList && counts.toList == counts'.toList) =
    true <-> _
  rw [Bool.and_eq_true, beq_iff_eq, beq_iff_eq, Std.ExtTreeMap.toList_inj,
    Std.ExtTreeMap.toList_inj, Snapshot.mk.injEq]

end Snapshot
end FairLease
