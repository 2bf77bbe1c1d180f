import Mathlib.Data.List.Sort
import Mathlib.Data.String.Basic
import FairLease.Proofs.Claim.Codec
import FairLease.Proofs.Store.Contents

/-!
# Pages of a listing

A page shows what could be seen when it was read, in order of the keys. All that
a page leaves out comes after the key from which the next page goes on.
-/

namespace FairLease
namespace MemoryStore

/-!
# Listings

A listing is read off a store from which all lapsed entries have been removed,
so that it shows exactly the live entries.
-/

theorem mem_listing_iff {s : MemoryStore} {now : Nat} {r : ScanRequest}
    {kv : KeyValue} :
    kv ∈ s.listing now r <->
      exists key e, s.get? key = some e ∧ Text.startsWith key r.lead = true ∧
        r.isPending key = true ∧ e.toKeyValue key now = kv := by
  unfold listing get?
  simp only [List.mem_map, List.mem_filter, Prod.exists, Bool.and_eq_true,
    Std.ExtTreeMap.mem_toList_iff_getElem?_eq_some]
  constructor
  · rintro ⟨key, e, ⟨hget, hlead, hpending⟩, hkv⟩
    exact ⟨key, e, hget, hlead, hpending, hkv⟩
  · rintro ⟨key, e, hget, hlead, hpending, hkv⟩
    exact ⟨key, e, ⟨hget, hlead, hpending⟩, hkv⟩

theorem entries_sorted (s : MemoryStore) :
    s.entries.toList.Pairwise (fun p q => p.1 < q.1) := by
  refine (Std.ExtTreeMap.ordered_keys_toList (t := s.entries)).imp ?_
  intro p q hpq
  exact compareOfLessAndEq_eq_lt.mp hpq

theorem listing_sorted (s : MemoryStore) (now : Nat) (r : ScanRequest) :
    (s.listing now r).Pairwise (fun a b => a.key < b.key) := by
  unfold listing
  rw [List.pairwise_map]
  exact s.entries_sorted.filter _

theorem shown_of_mem_listing
    {s : MemoryStore} {now : Nat} {r : ScanRequest} {kv : KeyValue}
    (h : kv ∈ (s.scan now r).2.listing now r) :
    Text.startsWith kv.key r.lead = true ∧ r.isPending kv.key = true ∧
      exists e, s.live? now kv.key = some e ∧ e.toKeyValue kv.key now = kv := by
  rcases mem_listing_iff.mp h with ⟨key, e, hget, hlead, hpending, rfl⟩
  refine ⟨hlead, hpending, e, ?_, rfl⟩
  rw [scan, get?_purgeAll, if_pos hlead] at hget
  exact hget

theorem live?_of_mem_listing
    {s : MemoryStore} {now : Nat} {r : ScanRequest} {kv : KeyValue}
    (h : kv ∈ (s.scan now r).2.listing now r) :
    Text.startsWith kv.key r.lead = true ∧ r.isPending kv.key = true ∧
      exists e, s.live? now kv.key = some e ∧ e.value = kv.value := by
  rcases shown_of_mem_listing h with ⟨hlead, hpending, e, hlive, hkv⟩
  exact ⟨hlead, hpending, e, hlive, congrArg KeyValue.value hkv⟩

theorem mem_listing_of_live? {s : MemoryStore} {now : Nat} {r : ScanRequest}
    {key : String} {e : Entry} (hlive : s.live? now key = some e)
    (hlead : Text.startsWith key r.lead = true)
    (hpending : r.isPending key = true) :
    e.toKeyValue key now ∈ (s.scan now r).2.listing now r := by
  refine mem_listing_iff.mpr ⟨key, e, ?_, hlead, hpending, rfl⟩
  rw [scan, get?_purgeAll, if_pos hlead]
  exact hlive

/-!
# The walk through the table

The keys that start with a lead follow each other in the table, so that a walk
may begin at the lead and stop at the first key that does not.
-/

theorem filter_eq_takeWhile {α : Type} {lead : String} {l : List (String × α)}
    (hsorted : l.Pairwise (fun p q => p.1 < q.1))
    (hl : forall p, p ∈ l -> ¬ p.1 < lead) :
    l.filter (fun p => Text.startsWith p.1 lead) =
      l.takeWhile (fun p => Text.startsWith p.1 lead) := by
  induction l with
  | nil => rfl
  | cons p rest ih =>
      rcases List.pairwise_cons.mp hsorted with ⟨hp, hrest⟩
      rw [List.filter_cons, List.takeWhile_cons]
      cases hlead : Text.startsWith p.1 lead with
      | true =>
          have hrest' : forall q, q ∈ rest -> ¬ q.1 < lead := fun q hq =>
            hl q (List.mem_cons_of_mem p hq)
          show p :: rest.filter (fun p => Text.startsWith p.1 lead) =
              p :: rest.takeWhile _
          rw [ih hrest hrest']
      | false =>
          show rest.filter (fun p => Text.startsWith p.1 lead) = []
          rw [List.filter_eq_nil_iff]
          intro q hq hqlead
          have hplead :=
            Text.startsWith_of_between (hl p List.mem_cons_self)
              (hp q hq) hqlead
          rw [hlead] at hplead
          cases hplead

theorem filter_eq_walk {α : Type} {lead : String} {l : List (String × α)}
    (hsorted : l.Pairwise (fun p q => p.1 < q.1)) :
    l.filter (fun p => Text.startsWith p.1 lead) =
      (l.dropWhile (fun p => decide (p.1 < lead))).takeWhile
        (fun p => Text.startsWith p.1 lead) := by
  induction l with
  | nil => rfl
  | cons p rest ih =>
      rcases List.pairwise_cons.mp hsorted with ⟨hp, hrest⟩
      by_cases hlt : p.1 < lead
      · have hlead : Text.startsWith p.1 lead = false := by
          rw [Bool.eq_false_iff]
          intro hlead
          exact Text.not_lt_of_startsWith hlead hlt
        rw [List.filter_cons, List.dropWhile_cons, hlead, decide_eq_true hlt]
        exact ih hrest
      · rw [List.dropWhile_cons, decide_eq_false hlt]
        apply filter_eq_takeWhile hsorted
        intro q hq
        rcases List.mem_cons.mp hq with rfl | hq
        · exact hlt
        · intro hqlt
          exact hlt (lt_trans (hp q hq) hqlt)

/-- The keys of a listing stand together: it starts at the first key that is not
before its lead and ends before the first that does not start with it. -/
theorem listing_eq_walk (s : MemoryStore) (now : Nat) (r : ScanRequest) :
    s.listing now r =
      (((s.entries.toList.dropWhile (fun p => decide (p.1 < r.lead))).takeWhile
        (fun p => Text.startsWith p.1 r.lead)).filter
          (fun p => r.isPending p.1)).map
          (fun p => p.2.toKeyValue p.1 now) := by
  rw [← filter_eq_walk s.entries_sorted, List.filter_filter, listing]
  congr 2
  funext p
  exact Bool.and_comm _ _

/-!
# Listings at one moment

Where lapsed entries have just been removed there is nothing to remove, and what
a request leaves out of a listing it leaves out of the whole one.
-/

theorem lapsedKeys_purgeAll (s : MemoryStore) (now : Nat)
    (select : String -> Bool) :
    (s.purgeAll now select).lapsedKeys now select = [] := by
  rw [List.eq_nil_iff_forall_not_mem]
  intro key hkey
  rcases mem_lapsedKeys_iff.mp hkey with ⟨hselect, e, hget, hlapsed⟩
  rw [get?_purgeAll, if_pos hselect] at hget
  rw [(live?_eq_some_iff.mp hget).right] at hlapsed
  cases hlapsed

theorem purgeAll_purgeAll (s : MemoryStore) (now : Nat)
    (select : String -> Bool) :
    (s.purgeAll now select).purgeAll now select = s.purgeAll now select := by
  rw [purgeAll, lapsedKeys_purgeAll]
  rfl

theorem scan_scan (s : MemoryStore) (now : Nat) (root : String) :
    ((s.scan now ⟨root, none, none⟩).2.scan now ⟨root, none, none⟩).2 =
      (s.scan now ⟨root, none, none⟩).2 :=
  s.purgeAll_purgeAll now _

theorem log_purge (s : MemoryStore) (now : Nat) (key : String) :
    (s.purge now key).log = s.log := by
  rcases purge_cases s now key with ⟨hpurge, _⟩ | ⟨hpurge, _⟩ <;> rw [hpurge]
  rfl

theorem log_purgeAll (s : MemoryStore) (now : Nat) (select : String -> Bool) :
    (s.purgeAll now select).log = s.log := by
  unfold purgeAll
  induction s.lapsedKeys now select generalizing s with
  | nil => rfl
  | cons key rest ih => rw [List.foldl_cons, ih, log_purge]

theorem listing_eq_filter (s : MemoryStore) (now : Nat) (r : ScanRequest) :
    s.listing now r =
      (s.listing now ⟨r.lead, none, none⟩).filter
        (fun kv => r.isPending kv.key) := by
  simp only [listing, List.filter_map, List.filter_filter,
    ScanRequest.isPending, Bool.and_true]
  congr 2
  funext p
  exact Bool.and_comm _ _

/-!
# What a client sees

The keys under a lead that have not lapsed, with their values. A listing shows
of them what a request asks for.
-/

def visible (s : MemoryStore) (now : Nat) (lead : String) :
    List (String × String) :=
  (s.entries.toList.filter (fun p => Text.startsWith p.1 lead &&
    !p.2.hasLapsed now)).map (fun p => (p.1, p.2.value))

theorem mem_visible_iff {s : MemoryStore} {now : Nat} {lead : String}
    {p : String × String} :
    p ∈ s.visible now lead <->
      Text.startsWith p.1 lead = true ∧ exists e, s.live? now p.1 = some e ∧
        e.value = p.2 := by
  unfold visible
  simp only [List.mem_map, List.mem_filter, Prod.exists, Bool.and_eq_true,
    Bool.not_eq_true', Std.ExtTreeMap.mem_toList_iff_getElem?_eq_some,
    live?_eq_some_iff, get?]
  constructor
  · rintro ⟨key, e, ⟨hget, hlead, hlapsed⟩, rfl⟩
    exact ⟨hlead, e, ⟨hget, hlapsed⟩, rfl⟩
  · rintro ⟨hlead, e, ⟨hget, hlapsed⟩, hvalue⟩
    exact ⟨p.1, e, ⟨hget, hlead, hlapsed⟩, Prod.ext rfl hvalue⟩

theorem visible_sorted (s : MemoryStore) (now : Nat) (lead : String) :
    (s.visible now lead).Pairwise (fun p q => p.1 < q.1) := by
  unfold visible
  rw [List.pairwise_map]
  exact s.entries_sorted.filter _

theorem eq_of_sorted {l l' : List (String × String)}
    (h : l.Pairwise (fun p q => p.1 < q.1))
    (h' : l'.Pairwise (fun p q => p.1 < q.1))
    (hmem : forall p, p ∈ l <-> p ∈ l') : l = l' := by
  have hasymm : Std.Asymm (fun p q : String × String => p.1 < q.1) :=
    ⟨fun _ _ hpq => lt_asymm hpq⟩
  exact List.Pairwise.eq_of_mem_iff h h' hmem

theorem map_listing_scan (s : MemoryStore) (now : Nat) (r : ScanRequest) :
    ((s.scan now r).2.listing now r).map (fun kv => (kv.key, kv.value)) =
      (s.visible now r.lead).filter (fun p => r.isPending p.1) := by
  apply eq_of_sorted
  · rw [List.pairwise_map]
    exact listing_sorted (s.scan now r).2 now r
  · exact (s.visible_sorted now r.lead).filter _
  · intro p
    rw [List.mem_map, List.mem_filter, mem_visible_iff]
    constructor
    · rintro ⟨kv, hkv, rfl⟩
      rcases live?_of_mem_listing hkv with ⟨hlead, hpending, e, hlive, hvalue⟩
      exact ⟨⟨hlead, e, hlive, hvalue⟩, hpending⟩
    · rintro ⟨⟨hlead, e, hlive, hvalue⟩, hpending⟩
      exact ⟨_, mem_listing_of_live? hlive hlead hpending, Prod.ext rfl hvalue⟩

end MemoryStore
end FairLease
