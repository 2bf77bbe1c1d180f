import Mathlib.Data.Finset.Card
import FairLease.Proofs.Fleet.Ownership

/-!
# Counting live claims

The claims of an owner are the live keys under the root that have its value. A
claim that is not removed keeps its owner, and only a granted call adds one.
-/

namespace FairLease
namespace Fleet

open MemoryStore

section

variable {ι : Type}

/-!
# Live claims
-/

def claims (f : Fleet ι) (root : String) : List KeyValue :=
  (f.store.scan f.now ⟨root, none, none⟩).2.listing f.now ⟨root, none, none⟩

def holdings (f : Fleet ι) (root uid : String) : Finset String :=
  (((f.claims root).filter (fun kv => kv.value == uid)).map (·.key)).toFinset

def count (f : Fleet ι) (root uid : String) : Nat :=
  (f.holdings root uid).card

/-- The live claims as a listing would find them if nothing happened in the
meantime. -/
def snapshot (f : Fleet ι) (root : String) : Except ClaimError Snapshot :=
  Listing.collect root .empty (f.claims root)

variable {f : Fleet ι} {root uid key : String}

theorem mem_claims {kv : KeyValue} (h : kv ∈ f.claims root) :
    Text.startsWith kv.key root = true ∧ f.Holds kv.key kv.value := by
  rcases live?_of_mem_listing h with ⟨hlead, _, e, hlive, hvalue⟩
  exact ⟨hlead, e, hlive, hvalue⟩

theorem mem_holdings_iff :
    key ∈ f.holdings root uid <-> Text.startsWith key root = true ∧
      f.Holds key uid := by
  unfold holdings
  rw [List.mem_toFinset, List.mem_map]
  constructor
  · rintro ⟨kv, hkv, rfl⟩
    rw [List.mem_filter] at hkv
    rcases mem_claims hkv.left with ⟨hlead, e, hlive, hvalue⟩
    exact ⟨hlead, e, hlive, by rw [hvalue]; exact beq_iff_eq.mp hkv.right⟩
  · rintro ⟨hlead, e, hlive, hvalue⟩
    refine ⟨e.toKeyValue key f.now, ?_, rfl⟩
    rw [List.mem_filter]
    exact ⟨mem_listing_of_live? (r := ⟨root, none, none⟩) hlive hlead rfl,
      beq_iff_eq.mpr hvalue⟩

theorem claims_sorted (f : Fleet ι) (root : String) :
    (f.claims root).Pairwise (fun a b => a.key < b.key) :=
  listing_sorted _ _ _

theorem count_eq_countP (f : Fleet ι) (root uid : String) :
    f.count root uid = (f.claims root).countP (fun kv => kv.value == uid) := by
  unfold count holdings
  rw [List.toFinset_card_of_nodup, List.length_map,
    List.countP_eq_length_filter]
  have hsorted := (f.claims_sorted root).filter (fun kv => kv.value == uid)
  unfold List.Nodup
  rw [List.pairwise_map]
  exact hsorted.imp ne_of_lt

theorem nodup_of_sorted {claims : List (String × String)} {root : String}
    (h : (claims.map (fun claim => ClaimKey.ofCidr root claim.1)).Pairwise
      (fun a b => a < b)) :
    (claims.map (·.1)).Nodup := by
  rw [List.pairwise_map] at h
  unfold List.Nodup
  rw [List.pairwise_map]
  refine h.imp ?_
  intro a b hab heq
  rw [heq] at hab
  exact lt_irrefl _ hab

theorem snapshot_eq_ok (hkeys : f.HasClaimKeys root) {s : Snapshot}
    (h : f.snapshot root = .ok s) :
    exists claims : List (String × String), s = Snapshot.ofList claims ∧
      (claims.map (·.1)).Nodup ∧
      (forall claim, claim ∈ claims -> f.Owns root claim.1 claim.2) ∧
      forall uid, Snapshot.owned claims uid = f.count root uid := by
  have hsound : forall kv, kv ∈ f.claims root ->
      ClaimKey.IsEncoded root kv.key := by
    intro kv hkv
    rcases mem_claims hkv with ⟨hlead, e, hlive, _⟩
    exact hkeys _ _ (live?_eq_some_iff.mp hlive).left hlead
  rcases Listing.collect_eq_ok hsound h with ⟨claims, hclaims, hentries⟩
  have hfirst : (f.claims root).map (·.key) =
      claims.map (fun claim => ClaimKey.ofCidr root claim.1) := by
    have hmap := congrArg (List.map Prod.fst) hentries
    simpa [List.map_map, Function.comp_def] using hmap
  have hsecond : (f.claims root).map (·.value) = claims.map (·.2) := by
    have hmap := congrArg (List.map Prod.snd) hentries
    simpa [List.map_map, Function.comp_def] using hmap
  have hsorted : ((f.claims root).map (·.key)).Pairwise (fun a b => a < b) :=
    List.pairwise_map.mpr (f.claims_sorted root)
  rw [hfirst] at hsorted
  refine ⟨claims, hclaims, nodup_of_sorted hsorted, ?_, ?_⟩
  · intro claim hclaim
    rcases Listing.mem_entries_of_claim hentries hclaim with
      ⟨kv, hkv, hkey, hvalue⟩
    have hholds := (mem_claims hkv).right
    rw [hkey, hvalue] at hholds
    exact hholds
  · intro uid
    rw [count_eq_countP, Snapshot.owned]
    have hcount := congrArg (List.countP (fun value => value == uid)) hsecond
    rw [List.countP_map, List.countP_map] at hcount
    exact hcount.symm

/-- The snapshot counts claims as they are, up to the largest count there is. -/
theorem count_snapshot (hkeys : f.HasClaimKeys root) {s : Snapshot}
    (h : f.snapshot root = .ok s) (uid : String) :
    s.count uid = min (f.count root uid) Snapshot.maxCount := by
  rcases snapshot_eq_ok hkeys h with ⟨claims, rfl, hnodup, _, howned⟩
  rw [← howned]
  exact Snapshot.count_ofList hnodup uid

end

/-!
# What an act does to the claims
-/

variable {ι : Type} [DecidableEq ι]

theorem Step.holds {f g : Fleet ι} {act : Act ι} {key uid : String}
    (h : Step f act g) (hlive : g.store.live? g.now key ≠ none)
    (hf : f.Holds key uid) : g.Holds key uid := by
  rcases Option.ne_none_iff_exists'.mp hlive with ⟨e', hlive'⟩
  rcases hf with ⟨e, hbefore, hvalue⟩
  have hget := (live?_eq_some_iff.mp hbefore).left
  have hget' := (live?_eq_some_iff.mp hlive').left
  refine ⟨e', hlive', ?_⟩
  rcases h.store_cases with
    hpurged | ⟨j, c, e'', _, _, _, hfree, _, _, hreplaced⟩ |
      ⟨i, id, r, old, e'', _, _, hold, howner, hrenewed, hreplaced⟩ | ⟨k,
        _, hreplaced⟩
  · have hsame := hpurged.get?_of_live? hbefore
    rw [hget'] at hsame
    cases hsame
    exact hvalue
  · have hentry := hreplaced key
    by_cases hkey : c.admission.key (f.settings c) = key
    · rw [hkey, hbefore] at hfree
      cases hfree
    · rw [if_neg hkey, hget', hget] at hentry
      cases hentry
      exact hvalue
  · have hentry := hreplaced key
    by_cases hkey : r.lease.key = key
    · subst hkey
      rw [hbefore] at hold
      cases hold
      rw [if_pos rfl, hget'] at hentry
      cases hentry
      rw [hrenewed, ← howner, hvalue]
    · rw [if_neg hkey, hget', hget] at hentry
      cases hentry
      exact hvalue
  · have hentry := hreplaced key
    by_cases hkey : k = key
    · rw [if_pos hkey, hget'] at hentry
      cases hentry
    · rw [if_neg hkey, hget', hget] at hentry
      cases hentry
      exact hvalue

theorem Step.holds_before {root : String} {f g : Fleet ι} {act : Act ι}
    {key uid : String} (h : Step f act g) (hroot : f.IsRooted root)
    (hg : g.Holds key uid) :
    f.Holds key uid ∨
      exists j c, act = .proceed j ∧ f.calls[j]? = some c ∧
        c.admission.phase = .creating ∧
        c.admission.uid = uid ∧
          ClaimKey.ofCidr root c.admission.cidr = key := by
  rcases hg with ⟨e, hlive, hvalue⟩
  have hle : f.now ≤ g.now := by
    rcases h.now with hsame | ⟨nanos, _, hnow, _⟩
    · exact Nat.le_of_eq hsame.symm
    · omega
  have hlive' := live?_of_later hle hlive
  have hget := (live?_eq_some_iff.mp hlive').left
  have hsame (hentry : some e = f.store.get? key) : f.Holds key uid :=
    ⟨e, live?_eq_some_iff.mpr ⟨hentry.symm,
      (live?_eq_some_iff.mp hlive').right⟩, hvalue⟩
  rcases h.store_cases with
    hpurged | ⟨j, c, e', hact, hc, hphase, _, hnew, _, hreplaced⟩ |
      ⟨i, id, r, old, e', _, _, hold, howner, hrenewed, hreplaced⟩ | ⟨k,
        _, hreplaced⟩
  · rw [hpurged.live?_eq] at hlive'
    exact Or.inl ⟨e, hlive', hvalue⟩
  · have hentry := hreplaced key
    by_cases hkey : c.admission.key (f.settings c) = key
    · rw [if_pos hkey, hget] at hentry
      cases hentry
      refine Or.inr ⟨j, c, hact, hc, hphase, by rw [← hnew, hvalue], ?_⟩
      rw [← key_eq hroot, hkey]
    · rw [if_neg hkey, hget] at hentry
      exact Or.inl (hsame hentry)
  · have hentry := hreplaced key
    by_cases hkey : r.lease.key = key
    · subst hkey
      rw [if_pos rfl, hget] at hentry
      cases hentry
      exact Or.inl ⟨old, hold, by rw [howner, ← hrenewed, hvalue]⟩
    · rw [if_neg hkey, hget] at hentry
      exact Or.inl (hsame hentry)
  · have hentry := hreplaced key
    by_cases hkey : k = key
    · rw [if_pos hkey, hget] at hentry
      cases hentry
    · rw [if_neg hkey, hget] at hentry
      exact Or.inl (hsame hentry)

/-- An act adds no claim for an owner unless it creates one for it. -/
theorem Step.count_cases {root : String} {f g : Fleet ι} {act : Act ι}
    (h : Step f act g) (hroot : f.IsRooted root) (uid : String) :
    g.count root uid ≤ f.count root uid ∨
      exists j c, act = .proceed j ∧ f.calls[j]? = some c ∧
        c.admission.phase = .creating ∧
        c.admission.uid = uid ∧ g.count root uid ≤ f.count root uid + 1 := by
  by_cases hcreates : exists j c, act = .proceed j ∧ f.calls[j]? = some c ∧
      c.admission.phase = .creating ∧ c.admission.uid = uid
  · rcases hcreates with ⟨j, c, hact, hc, hphase, huid⟩
    refine Or.inr ⟨j, c, hact, hc, hphase, huid, ?_⟩
    have hsub : g.holdings root uid ⊆
        insert (ClaimKey.ofCidr root c.admission.cidr)
          (f.holdings root uid) := by
      intro key hkey
      rw [mem_holdings_iff] at hkey
      rw [Finset.mem_insert, mem_holdings_iff]
      rcases h.holds_before hroot hkey.right with
        hbefore | ⟨j', c', hact', hc', _, _, hnew⟩
      · exact Or.inr ⟨hkey.left, hbefore⟩
      · rw [hact] at hact'
        cases hact'
        rw [hc] at hc'
        cases hc'
        exact Or.inl hnew.symm
    exact Nat.le_trans (Finset.card_le_card hsub) (Finset.card_insert_le _ _)
  · apply Or.inl
    apply Finset.card_le_card
    intro key hkey
    rw [mem_holdings_iff] at hkey ⊢
    rcases h.holds_before hroot hkey.right with
      hbefore | ⟨j, c, hact, hc, hphase, huid, _⟩
    · exact ⟨hkey.left, hbefore⟩
    · exact absurd ⟨j, c, hact, hc, hphase, huid⟩ hcreates

end Fleet
end FairLease
