import FairLease.Proofs.Fleet.Survey

/-!
# Allocations on record

The live claims are on record in an allocation. Who asks the store for an owner,
or lists the claims page by page, finds what is on record.
-/

namespace FairLease

theorem ClaimKey.checkKey_ofCidr {root cidr : String}
    (h : ClaimKey.defect? cidr = none)
    (hshort : (ClaimKey.ofCidr root cidr).utf8ByteSize ≤ maxKeySize) :
    Command.checkKey (ClaimKey.ofCidr root cidr) = .ok () := by
  have hne : (ClaimKey.ofCidr root cidr).isEmpty = false := by
    rw [Bool.eq_false_iff]
    intro hempty
    rw [String.isEmpty_iff] at hempty
    have hroot := ClaimKey.startsWith_ofCidr root cidr
    rw [hempty, Text.startsWith_iff] at hroot
    rcases hroot with ⟨rest, hrest⟩
    have hnil := (List.append_eq_nil_iff.mp hrest.symm).left
    rw [← String.toList_empty] at hnil
    exact ClaimKey.ofCidr_ne_root h
      (hempty.trans (String.toList_inj.mp hnil).symm)
  rw [Command.checkKey, hne, if_neg Bool.false_ne_true,
    if_neg (Nat.not_lt.mpr hshort)]

namespace Listing

theorem collect_of_valid {root : String} {claims : List (String × String)}
    (hvalid : forall claim, claim ∈ claims -> ClaimKey.defect? claim.1 = none)
    {kvs : List KeyValue} (h : kvs.map (fun kv => (kv.key, kv.value)) =
      claims.map (fun claim => (ClaimKey.ofCidr root claim.1, claim.2)))
        (found : Snapshot) :
    collect root found kvs =
      .ok (claims.foldl (fun s claim => s.insert claim.1 claim.2) found) := by
  induction kvs generalizing claims found with
  | nil =>
      rw [List.map_nil, eq_comm, List.map_eq_nil_iff] at h
      rw [h]
      rfl
  | cons kv rest ih =>
      cases claims with
      | nil => cases h
      | cons claim claims =>
          rw [List.map_cons, List.map_cons, List.cons.injEq, Prod.mk.injEq] at h
          rcases h with ⟨⟨hkey, hvalue⟩, hrest⟩
          rw [collect, hkey, ClaimKey.toCidr_ofCidr root
            (hvalid claim List.mem_cons_self), hvalue]
          exact ih (fun c hc =>
            hvalid c (List.mem_cons_of_mem claim hc)) hrest _

end Listing

namespace Fleet

open MemoryStore

section

variable {ι : Type} {f g : Fleet ι} {root : String}
  {claims : List (String × String)}

/-!
# Changes of an inventory
-/

theorem IsInventory.congr {others : List (String × String)}
    (h : f.IsInventory root claims) (hnodup : (others.map (·.1)).Nodup)
    (hsame : forall claim, claim ∈ others <-> claim ∈ claims) :
    f.IsInventory root others where
  nodup := hnodup
  valid := fun claim hclaim => h.valid claim ((hsame claim).mp hclaim)
  holds_iff := by
    intro key uid hlead
    simp only [h.holds_iff key uid hlead, hsame]

theorem IsInventory.of_holds_iff (h : f.IsInventory root claims)
    (hsame : forall key uid, g.Holds key uid <-> f.Holds key uid) :
    g.IsInventory root claims where
  nodup := h.nodup
  valid := h.valid
  holds_iff := fun key uid hlead =>
    (hsame key uid).trans (h.holds_iff key uid hlead)

theorem IsInventory.lose {m : Allocation} (h : f.IsInventory root m.toList)
    (gone : String -> Bool)
    (hholds : forall key uid, Text.startsWith key root = true ->
      (g.Holds key uid <-> f.Holds key uid ∧ gone key = false)) :
    g.IsInventory root
      (m.lose (fun cidr => gone (ClaimKey.ofCidr root cidr))).toList where
  nodup := Allocation.nodup_toList _
  valid := by
    intro claim hclaim
    rw [Allocation.mem_toList_iff, Allocation.getElem?_lose] at hclaim
    split at hclaim
    · cases hclaim
    · exact h.valid claim (Allocation.mem_toList_iff.mpr hclaim)
  holds_iff := by
    intro key uid hlead
    rw [hholds key uid hlead, h.holds_iff key uid hlead]
    constructor
    · rintro ⟨⟨claim, hclaim, rfl, howner⟩, hgone⟩
      refine ⟨claim, ?_, rfl, howner⟩
      rw [Allocation.mem_toList_iff, Allocation.getElem?_lose, hgone]
      exact Allocation.mem_toList_iff.mp hclaim
    · rintro ⟨claim, hclaim, rfl, howner⟩
      rw [Allocation.mem_toList_iff, Allocation.getElem?_lose] at hclaim
      split at hclaim
      · cases hclaim
      · rename_i hgone
        exact ⟨⟨claim, Allocation.mem_toList_iff.mpr hclaim, rfl, howner⟩,
          Bool.eq_false_iff.mpr hgone⟩

/-!
# What is found
-/

theorem exists_claim_of_holds {key uid : String}
    (hlead : Text.startsWith key root = true) (h : f.Holds key uid) :
    exists kv, kv ∈ f.claims root ∧ kv.key = key ∧ kv.value = uid := by
  rcases h with ⟨e, hlive, hvalue⟩
  exact ⟨e.toKeyValue key f.now,
    mem_listing_of_live? (r := ⟨root, none, none⟩) hlive hlead rfl, rfl, hvalue⟩

theorem nodup_of_entries {listed : List (String × String)}
    (h : (f.claims root).map (fun kv => (kv.key, kv.value)) =
      listed.map (fun claim => (ClaimKey.ofCidr root claim.1, claim.2))) :
    (listed.map (·.1)).Nodup := by
  have hkeys : (f.claims root).map (·.key) =
      listed.map (fun claim => ClaimKey.ofCidr root claim.1) := by
    have hmap := congrArg (List.map Prod.fst) h
    simpa only [List.map_map, Function.comp_def] using hmap
  apply nodup_of_sorted
  rw [← hkeys, List.pairwise_map]
  exact f.claims_sorted root

theorem IsInventory.claims_eq (h : f.IsInventory root claims) :
    exists listed : List (String × String),
      (f.claims root).map (fun kv => (kv.key, kv.value)) =
        listed.map (fun claim => (ClaimKey.ofCidr root claim.1, claim.2)) ∧
      forall claim, claim ∈ listed <-> claim ∈ claims := by
  have hrange : (f.claims root).map (fun kv => (kv.key, kv.value)) ∈
      Set.range (List.map (fun claim : { claim // claim ∈ claims } =>
        (ClaimKey.ofCidr root claim.1.1, claim.1.2))) := by
    rw [Set.range_list_map]
    intro entry hentry
    rcases List.mem_map.mp hentry with ⟨kv, hkv, rfl⟩
    rcases mem_claims hkv with ⟨hlead, hholds⟩
    rcases (h.holds_iff kv.key kv.value hlead).mp hholds with
      ⟨claim, hclaim, hkey, howner⟩
    exact ⟨⟨claim, hclaim⟩, Prod.ext hkey howner⟩
  rcases hrange with ⟨listed, hlisted⟩
  have hentries : (f.claims root).map (fun kv => (kv.key, kv.value)) =
      (listed.map Subtype.val).map (fun claim =>
        (ClaimKey.ofCidr root claim.1, claim.2)) := by
    rw [← hlisted, List.map_map]
    rfl
  refine ⟨listed.map Subtype.val, hentries, ?_⟩
  intro claim
  constructor
  · intro hclaim
    rcases List.mem_map.mp hclaim with ⟨known, _, rfl⟩
    exact known.property
  · intro hclaim
    have hlead := ClaimKey.startsWith_ofCidr root claim.1
    rcases exists_claim_of_holds hlead
      ((h.holds_iff _ claim.2 hlead).mpr ⟨claim, hclaim, rfl, rfl⟩)
      with ⟨kv, hkv, hkey, hvalue⟩
    rcases Listing.claim_of_mem_entries hentries hkv with
      ⟨claim', hclaim', hkey', howner⟩
    rcases List.mem_map.mp hclaim' with ⟨known, _, rfl⟩
    have hname :=
      ClaimKey.ofCidr_injective (h.valid _ known.property)
        (h.valid claim hclaim)
      (hkey'.trans hkey)
    have hsame : known.1 = claim := Prod.ext hname (howner.trans hvalue)
    rw [← hsame]
    exact hclaim'

theorem IsInventory.snapshot_shows {m : Allocation}
    (h : f.IsInventory root m.toList) (hsize : m.size < wordSize 32) :
    exists s, f.snapshot root = .ok s ∧ m.IsShownBy s := by
  rcases h.claims_eq with ⟨listed, hentries, hlisted⟩
  have hvalid : forall claim, claim ∈ listed ->
      ClaimKey.defect? claim.1 = none :=
    fun claim hclaim => h.valid claim ((hlisted claim).mp hclaim)
  refine ⟨Snapshot.ofList listed,
    Listing.collect_of_valid hvalid hentries .empty, ?_⟩
  apply Allocation.isShownBy_ofList (nodup_of_entries hentries) _ hsize
  intro cidr uid
  rw [hlisted, Allocation.mem_toList_iff]

theorem IsInventory.live?_value {m : Allocation}
    (h : f.IsInventory root m.toList) {cidr : String}
    (hvalid : ClaimKey.defect? cidr = none) :
    (f.store.live? f.now (ClaimKey.ofCidr root cidr)).map (·.value) =
      m[cidr]? := by
  have hholds (uid : String) : f.Holds (ClaimKey.ofCidr root cidr) uid <->
      m[cidr]? = some uid := by
    rw [h.holds_iff _ uid (ClaimKey.startsWith_ofCidr root cidr)]
    constructor
    · rintro ⟨claim, hclaim, hkey, rfl⟩
      rw [← ClaimKey.ofCidr_injective (h.valid claim hclaim) hvalid hkey]
      exact Allocation.mem_toList_iff.mp hclaim
    · intro howner
      exact ⟨(cidr, uid), Allocation.mem_toList_iff.mpr howner, rfl, rfl⟩
  apply Option.ext
  intro uid
  rw [← hholds, Option.map_eq_some_iff]
  rfl

theorem ask_eq {m : Allocation} (h : f.IsInventory root m.toList)
    (hroot : f.IsRooted root) (i : ι) {cidr : String}
    (hvalid : ClaimKey.defect? cidr = none) :
    (f.ask i cidr).1 = .ok m[cidr]? := by
  rw [ask, ClaimKey.validate, hvalid, hroot i, ← h.live?_value hvalid,
    ← entry_read]

end

end Fleet
end FairLease
