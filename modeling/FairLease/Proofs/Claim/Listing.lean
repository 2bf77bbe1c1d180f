import FairLease.Claim.Listing
import FairLease.Proofs.Claim.Codec
import FairLease.Proofs.Store.Listing

/-!
# Listings of claims

A page of a listing shows live claims, and together with the key that leads on
to the next page it accounts for all of them.
-/

namespace FairLease
namespace Listing

/-!
# Where a page ends
-/

theorem pageSize_pos (r : ScanRequest) : 0 < r.pageSize :=
  Nat.lt_of_lt_of_le Nat.zero_lt_one (Nat.le_max_left _ _)

theorem following_eq_some {pageSize : Nat} {listing : List KeyValue}
    {token : String}
    (h : following (.ofListing pageSize listing) = some token) :
    exists front last, listing.take pageSize = front ++ [last] ∧
      last.key = token := by
  simp only [following, ScanResult.ofListing] at h
  split at h
  · rcases Option.map_eq_some_iff.mp h with ⟨last, hlast, hkey⟩
    rcases List.getLast?_eq_some_iff.mp hlast with ⟨front, hfront⟩
    exact ⟨front, last, hfront, hkey⟩
  · cases h

theorem lt_of_following {pageSize : Nat} {listing : List KeyValue}
    {token : String}
    (h : following (.ofListing pageSize listing) = some token) :
    pageSize < listing.length := by
  simp only [following, ScanResult.ofListing] at h
  split at h
  · rename_i htruncated
    exact of_decide_eq_true htruncated
  · cases h

theorem length_le_of_following {pageSize : Nat} {listing : List KeyValue}
    (hpos : 0 < pageSize) (h : following (.ofListing pageSize listing) = none) :
    listing.length ≤ pageSize := by
  apply Nat.le_of_not_lt
  intro hlong
  simp only [following, ScanResult.ofListing, hlong, decide_true, if_true,
    Option.map_eq_none_iff, List.getLast?_eq_none_iff,
    List.take_eq_nil_iff] at h
  rcases h with hzero | hnil
  · omega
  · simp [hnil] at hlong

theorem following_eq_none {pageSize : Nat} {listing : List KeyValue}
    (hpos : 0 < pageSize) (h : following (.ofListing pageSize listing) = none) :
    listing.take pageSize = listing :=
  List.take_of_length_le (length_le_of_following hpos h)

theorem filter_after_last {α : Type} (key : α -> String) {front rest : List α}
    {last : α}
    (hsorted : (front ++ [last] ++ rest).Pairwise (fun a b => key a < key b)) :
    (front ++ [last] ++ rest).filter (fun a =>
      decide (key last < key a)) = rest := by
  rw [List.pairwise_append] at hsorted
  rcases hsorted with ⟨hfront, _, hrest⟩
  rw [List.pairwise_append] at hfront
  rw [List.filter_append, List.filter_eq_nil_iff.mpr, List.filter_eq_self.mpr,
    List.nil_append]
  · intro a ha
    rw [decide_eq_true_eq]
    exact hrest last (by simp) a ha
  · intro a ha
    rw [decide_eq_true_eq]
    rcases List.mem_append.mp ha with hmem | hmem
    · exact lt_asymm (hfront.right.right a hmem last (by simp))
    · rw [List.mem_singleton.mp hmem]
      exact lt_irrefl _

/-!
# What a page shows
-/

section

variable {s : MemoryStore} {now : Nat} {r : ScanRequest}

theorem mem_page {kv : KeyValue} (h : kv ∈ (s.scan now r).1.entries) :
    Text.startsWith kv.key r.lead = true ∧ r.isPending kv.key = true ∧
      exists e, s.live? now kv.key = some e ∧ e.value = kv.value :=
  MemoryStore.live?_of_mem_listing (List.mem_of_mem_take h)

theorem page_sorted (s : MemoryStore) (now : Nat) (r : ScanRequest) :
    (s.scan now r).1.entries.Pairwise (fun a b => a.key < b.key) :=
  ((s.scan now r).2.listing_sorted now r).sublist (List.take_sublist _ _)

theorem mem_page_of_following {token : String}
    (h : following (s.scan now r).1 = some token) :
    exists kv, kv ∈ (s.scan now r).1.entries ∧ kv.key = token := by
  rcases following_eq_some h with ⟨front, last, hfront, hkey⟩
  have hlast : last ∈ front ++ [last] := by simp
  rw [← hfront] at hlast
  exact ⟨last, hlast, hkey⟩

theorem page_before {token : String}
    (h : following (s.scan now r).1 = some token) {kv : KeyValue}
    (hkv : kv ∈ (s.scan now r).1.entries) : ¬ token < kv.key := by
  rcases following_eq_some h with ⟨front, last, hfront, hkey⟩
  have hsorted := page_sorted s now r
  change kv ∈ List.take _ _ at hkv
  change List.Pairwise _ (List.take _ _) at hsorted
  rw [hfront] at hkv hsorted
  rw [← hkey]
  rcases List.mem_append.mp hkv with hmem | hmem
  · exact lt_asymm ((List.pairwise_append.mp hsorted).right.right kv hmem
      last (by simp))
  · rw [List.mem_singleton.mp hmem]
    exact lt_irrefl _

theorem lt_of_isPending {a b : String} (ha : r.isPending a = false)
    (hb : r.isPending b = true) :
    a < b := by
  unfold ScanRequest.isPending at ha hb
  cases hafter : r.after with
  | none =>
      rw [hafter] at ha
      cases ha
  | some token =>
      simp only [hafter, decide_eq_true_eq, decide_eq_false_iff_not,
        not_lt] at ha hb
      exact lt_of_le_of_lt ha hb

theorem accounted_before {token : String}
    (h : following (s.scan now r).1 = some token) {key : String}
    (hkey : r.isPending key = false) : ¬ token < key := by
  rcases mem_page_of_following h with ⟨kv, hkv, hlast⟩
  rw [← hlast]
  exact lt_asymm (lt_of_isPending hkey (mem_page hkv).right.left)

/-- What a page leaves out comes after the key that leads on. -/
theorem page_covers {key : String} {e : Entry}
    (hlive : s.live? now key = some e)
    (hlead : Text.startsWith key r.lead = true)
    (hpending : r.isPending key = true)
    (hbefore : forall token, following (s.scan now r).1 = some token ->
      ¬ token < key) :
    exists kv, kv ∈ (s.scan now r).1.entries ∧ kv.key = key ∧
      kv.value = e.value := by
  refine ⟨e.toKeyValue key now, ?_, rfl, rfl⟩
  have hmem := MemoryStore.mem_listing_of_live? hlive hlead hpending
  change _ ∈ List.take _ _
  cases hfollowing : following (s.scan now r).1 with
  | none =>
      rw [following_eq_none (pageSize_pos r) hfollowing]
      exact hmem
  | some token =>
      rcases following_eq_some hfollowing with ⟨front, last, hfront, hkey⟩
      have hsorted := (s.scan now r).2.listing_sorted now r
      rw [← List.take_append_drop r.pageSize
        ((s.scan now r).2.listing now r)] at hmem hsorted
      rcases List.mem_append.mp hmem with htake | hdrop
      · exact htake
      · have hlast : last ∈ front ++ [last] := by simp
        rw [← hfront] at hlast
        have hafter :=
          (List.pairwise_append.mp hsorted).right.right last hlast _ hdrop
        rw [hkey] at hafter
        exact absurd hafter (hbefore token hfollowing)

/-- The key of the root would come first in a listing. -/
theorem mem_page_of_lead {e : Entry} (hlive : s.live? now r.lead = some e)
    (hfirst : r.after = none) :
    exists kv, kv ∈ (s.scan now r).1.entries ∧ kv.key = r.lead := by
  have hlead : Text.startsWith r.lead r.lead = true := by
    rw [Text.startsWith_iff]
    exact ⟨[], by simp⟩
  have hpending : r.isPending r.lead = true := by
    rw [ScanRequest.isPending, hfirst]
  rcases page_covers hlive hlead hpending (by
    intro token hfollowing
    rcases mem_page_of_following hfollowing with ⟨kv, hkv, rfl⟩
    exact Text.not_lt_of_startsWith (mem_page hkv).left) with ⟨kv, hkv, hkey, _⟩
  exact ⟨kv, hkv, hkey⟩

end

/-!
# Collecting the claims of a page
-/

/-- What was collected from pages of sound keys comes from a list of claims
under these keys. -/
theorem collect_eq_ok {root : String} {found all : Snapshot}
    {kvs : List KeyValue}
    (hkeys : forall kv, kv ∈ kvs -> ClaimKey.IsEncoded root kv.key)
    (h : collect root found kvs = .ok all) :
    exists claims : List (String × String),
      all = claims.foldl (fun s claim => s.insert claim.1 claim.2) found ∧
        kvs.map (fun kv => (kv.key, kv.value)) =
          claims.map (fun claim =>
            (ClaimKey.ofCidr root claim.1, claim.2)) := by
  induction kvs generalizing found with
  | nil =>
      cases h
      exact ⟨[], rfl, rfl⟩
  | cons kv rest ih =>
      unfold collect at h
      cases hcidr : ClaimKey.toCidr root kv.key with
      | error e => simp [hcidr] at h
      | ok cidr =>
          simp only [hcidr] at h
          have hrest : forall kv', kv' ∈ rest ->
              ClaimKey.IsEncoded root kv'.key :=
            fun kv' hkv' => hkeys kv' (List.mem_cons_of_mem _ hkv')
          rcases ih hrest h with ⟨claims, hall, hclaims⟩
          have hkey :=
            ClaimKey.ofCidr_toCidr (hkeys kv List.mem_cons_self) hcidr
          refine ⟨(cidr, kv.value) :: claims, hall, ?_⟩
          rw [List.map_cons, List.map_cons, hclaims, hkey]

theorem collect_of_readable {root : String} {kvs : List KeyValue}
    (h : forall kv, kv ∈ kvs ->
      exists cidr, ClaimKey.toCidr root kv.key = .ok cidr)
    (found : Snapshot) : exists all, collect root found kvs = .ok all := by
  induction kvs generalizing found with
  | nil => exact ⟨found, rfl⟩
  | cons kv rest ih =>
      rcases h kv List.mem_cons_self with ⟨cidr, hcidr⟩
      rw [collect, hcidr]
      exact ih (fun kv' hkv' => h kv' (List.mem_cons_of_mem kv hkv'))
        (found.insert cidr kv.value)

theorem readable_of_collect {root : String} {found all : Snapshot}
    {kvs : List KeyValue} (h : collect root found kvs = .ok all) {kv : KeyValue}
    (hkv : kv ∈ kvs) :
    exists cidr, ClaimKey.toCidr root kv.key = .ok cidr := by
  induction kvs generalizing found with
  | nil => cases hkv
  | cons kv' rest ih =>
      unfold collect at h
      cases hcidr : ClaimKey.toCidr root kv'.key with
      | error e => simp [hcidr] at h
      | ok cidr =>
          rcases List.mem_cons.mp hkv with rfl | hrest
          · exact ⟨cidr, hcidr⟩
          · simp only [hcidr] at h
            exact ih h hrest

theorem collect_append (root : String) (found : Snapshot)
    (kvs more : List KeyValue) :
    collect root found (kvs ++ more) =
      match collect root found kvs with
      | .ok all => collect root all more
      | .error e => .error e := by
  induction kvs generalizing found with
  | nil => rfl
  | cons kv rest ih =>
      rw [List.cons_append, collect, collect]
      cases ClaimKey.toCidr root kv.key with
      | error e => rfl
      | ok cidr => exact ih (found.insert cidr kv.value)

theorem mem_entries_of_claim {root : String} {kvs : List KeyValue}
    {claims : List (String × String)}
    (h : kvs.map (fun kv => (kv.key, kv.value)) =
      claims.map (fun claim => (ClaimKey.ofCidr root claim.1, claim.2)))
    {claim : String × String} (hclaim : claim ∈ claims) :
    exists kv, kv ∈ kvs ∧ kv.key = ClaimKey.ofCidr root claim.1 ∧
      kv.value = claim.2 := by
  have hpair := List.mem_map_of_mem
    (f := fun claim : String × String =>
      (ClaimKey.ofCidr root claim.1, claim.2)) hclaim
  rw [← h] at hpair
  rcases List.mem_map.mp hpair with ⟨kv, hkv, heq⟩
  rw [Prod.mk.injEq] at heq
  exact ⟨kv, hkv, heq⟩

theorem claim_of_mem_entries {root : String} {kvs : List KeyValue}
    {claims : List (String × String)}
    (h : kvs.map (fun kv => (kv.key, kv.value)) =
      claims.map (fun claim => (ClaimKey.ofCidr root claim.1, claim.2)))
    {kv : KeyValue} (hkv : kv ∈ kvs) :
    exists claim, claim ∈ claims ∧ ClaimKey.ofCidr root claim.1 = kv.key ∧
      claim.2 = kv.value := by
  have hpair :=
    List.mem_map_of_mem (f := fun kv : KeyValue => (kv.key, kv.value)) hkv
  rw [h] at hpair
  rcases List.mem_map.mp hpair with ⟨claim, hclaim, heq⟩
  rw [Prod.mk.injEq] at heq
  exact ⟨claim, hclaim, heq⟩

end Listing
end FairLease
