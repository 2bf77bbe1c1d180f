import FairLease.Proofs.Fleet.Fairness

/-!
# Fleets whose claims are known

A listing that fits on one page sees the claims as they are. An owner with one
claim at most has no more than the others, and is granted what nobody holds.
-/

namespace FairLease
namespace Fleet

open MemoryStore

/-!
# Inventories

Valid names have different keys, so that claims on different resources are kept
apart by the store.
-/

structure IsInventory {ι : Type} (f : Fleet ι) (root : String)
    (claims : List (String × String)) : Prop where
  nodup : (claims.map (·.1)).Nodup
  valid : forall claim, claim ∈ claims -> ClaimKey.defect? claim.1 = none
  holds_iff : forall key uid, Text.startsWith key root = true ->
    (f.Holds key uid <->
      exists claim, claim ∈ claims ∧ ClaimKey.ofCidr root claim.1 = key ∧
        claim.2 = uid)

section

variable {ι : Type} {f : Fleet ι} {root : String}
  {claims : List (String × String)}

theorem IsInventory.nodup_keys (h : f.IsInventory root claims) :
    (claims.map (fun claim => ClaimKey.ofCidr root claim.1)).Nodup := by
  have hkeys : claims.map (fun claim => ClaimKey.ofCidr root claim.1) =
      (claims.map (·.1)).map (ClaimKey.ofCidr root) := by
    rw [List.map_map]
    rfl
  rw [hkeys]
  refine h.nodup.map_on ?_
  intro cidr hcidr cidr' hcidr' heq
  rcases List.mem_map.mp hcidr with ⟨claim, hclaim, rfl⟩
  rcases List.mem_map.mp hcidr' with ⟨claim', hclaim', rfl⟩
  exact ClaimKey.ofCidr_injective (h.valid claim hclaim)
    (h.valid claim' hclaim') heq

theorem IsInventory.count_eq (h : f.IsInventory root claims) (uid : String) :
    f.count root uid = Snapshot.owned claims uid := by
  have hholdings : f.holdings root uid =
      ((claims.filter (fun claim => claim.2 == uid)).map
        (fun claim => ClaimKey.ofCidr root claim.1)).toFinset := by
    ext key
    rw [mem_holdings_iff, List.mem_toFinset, List.mem_map]
    constructor
    · rintro ⟨hlead, hholds⟩
      rcases (h.holds_iff key uid hlead).mp hholds with
        ⟨claim, hclaim, hkey, howner⟩
      exact ⟨claim, List.mem_filter.mpr ⟨hclaim, beq_iff_eq.mpr howner⟩, hkey⟩
    · rintro ⟨claim, hclaim, rfl⟩
      rw [List.mem_filter] at hclaim
      have hlead := ClaimKey.startsWith_ofCidr root claim.1
      exact ⟨hlead, (h.holds_iff _ uid hlead).mpr
        ⟨claim, hclaim.left, rfl, beq_iff_eq.mp hclaim.right⟩⟩
  have hnodup : ((claims.filter (fun claim => claim.2 == uid)).map
      (fun claim => ClaimKey.ofCidr root claim.1)).Nodup :=
    h.nodup_keys.sublist (List.filter_sublist.map _)
  rw [count, hholdings, List.toFinset_card_of_nodup hnodup, List.length_map,
    ← List.countP_eq_length_filter, Snapshot.owned]

theorem IsInventory.claim_of_mem (h : f.IsInventory root claims) {kv : KeyValue}
    (hkv : kv ∈ f.claims root) :
    exists claim, claim ∈ claims ∧ ClaimKey.ofCidr root claim.1 = kv.key := by
  rcases mem_claims hkv with ⟨hlead, hholds⟩
  rcases (h.holds_iff kv.key kv.value hlead).mp hholds with
    ⟨claim, hclaim, hkey, _⟩
  exact ⟨claim, hclaim, hkey⟩

theorem IsInventory.length_claims_le (h : f.IsInventory root claims) :
    (f.claims root).length ≤ claims.length := by
  have hnodup : ((f.claims root).map (·.key)).Nodup := by
    unfold List.Nodup
    rw [List.pairwise_map]
    exact (f.claims_sorted root).imp ne_of_lt
  have hsub : (f.claims root).map (·.key) ⊆
      claims.map (fun claim => ClaimKey.ofCidr root claim.1) := by
    intro key hkey
    rcases List.mem_map.mp hkey with ⟨kv, hkv, rfl⟩
    rcases h.claim_of_mem hkv with ⟨claim, hclaim, hkey⟩
    exact List.mem_map.mpr ⟨claim, hclaim, hkey⟩
  have hle := (hnodup.subperm hsub).length_le
  rw [List.length_map, List.length_map] at hle
  exact hle

theorem IsInventory.snapshot_ok (h : f.IsInventory root claims) :
    exists s, f.snapshot root = .ok s := by
  apply Listing.collect_of_readable
  intro kv hkv
  rcases h.claim_of_mem hkv with ⟨claim, hclaim, hkey⟩
  rw [← hkey]
  exact ⟨claim.1, ClaimKey.toCidr_ofCidr root (h.valid claim hclaim)⟩

theorem IsInventory.live?_of_fresh (h : f.IsInventory root claims)
    {cidr : String} (hvalid : ClaimKey.defect? cidr = none)
    (hfresh : cidr ∉ claims.map (·.1)) :
    f.store.live? f.now (ClaimKey.ofCidr root cidr) = none := by
  cases hlive : f.store.live? f.now (ClaimKey.ofCidr root cidr) with
  | none => rfl
  | some e =>
      have hholds : f.Holds (ClaimKey.ofCidr root cidr) e.value :=
        ⟨e, hlive, rfl⟩
      rcases (h.holds_iff _ _ (ClaimKey.startsWith_ofCidr root cidr)).mp
        hholds with
        ⟨claim, hclaim, hkey, _⟩
      have heq := ClaimKey.ofCidr_injective (h.valid claim hclaim) hvalid hkey
      exact absurd (List.mem_map.mpr ⟨claim, hclaim, heq⟩) hfresh

end

/-!
# Calls on their own

Calls take no claim away, so that claims are lost only by the clock or by those
who delete them.
-/

def Act.IsCall {ι : Type} : Act ι -> Prop
  | .begin _ _ _ => True
  | .proceed _ => True
  | _ => False

section

variable {ι : Type} [DecidableEq ι]

theorem Step.live_of_call {f g : Fleet ι} {act : Act ι} (h : Step f act g)
    (hcall : act.IsCall)
    {key : String} (hlive : f.store.live? f.now key ≠ none) :
    g.store.live? g.now key ≠ none := by
  have hnow : g.now = f.now := by
    rcases h.now with hsame | ⟨_, rfl, _⟩
    · exact hsame
    · exact absurd hcall id
  rw [hnow]
  rcases h.store_cases with
    hpurged | ⟨j, c, e, _, _, _, hfree, _, _, hreplaced⟩ | ⟨_, _, _, _, _, rfl,
      _⟩ | ⟨_, rfl, _⟩
  · rw [hpurged.live?_eq]
    exact hlive
  · by_cases hkey : c.admission.key (f.settings c) = key
    · rw [hkey] at hfree
      exact absurd hfree hlive
    · have hsame := hreplaced key
      rw [if_neg hkey] at hsame
      rw [live?, hsame]
      exact hlive
  · exact absurd hcall id
  · exact absurd hcall id

theorem Step.holds_of_call {f g : Fleet ι} {act : Act ι} (h : Step f act g)
    (hcall : act.IsCall) {key uid : String} (hf : f.Holds key uid) :
    g.Holds key uid := by
  refine h.holds (h.live_of_call hcall ?_) hf
  rcases hf with ⟨e, hlive, _⟩
  rw [hlive]
  simp

theorem keepsClaims_of_calls {start : Fleet ι} {acts : List (Act ι)}
    (hacts : forall act, act ∈ acts -> act.IsCall) (root : String) :
    KeepsClaims start acts root := by
  intro n key _ hlive
  rcases after_cases start acts n with ⟨_, hsame⟩ | ⟨act, hact, hstep⟩
  · rw [hsame]
    exact hlive
  · exact hstep.live_of_call (hacts act (List.mem_of_getElem? hact)) hlive

end

/-!
# Calls that see everything
-/

section

variable {ι : Type} [DecidableEq ι] {f : Fleet ι} {root : String}
  {claims : List (String × String)}

/-- If all claims fit on the first page of a call, it decides by the
snapshot. -/
theorem next_listed_whole (hroot : f.IsRooted root) {j : Nat} {c : Call ι}
    (hc : f.calls[j]? = some c) (hphase : c.admission.phase = .listing .start)
    (hsize : (f.claims root).length ≤
      (Listing.request (f.settings c) none).pageSize)
    {s : Snapshot} (hs : f.snapshot root = .ok s) :
    f.next (.proceed j) =
      (f.setStore (f.store.scan f.now
        (Listing.request (f.settings c) none)).2).setCall j
        { c.admission with phase := c.admission.decide s } := by
  have hpage : (f.store.scan f.now (Listing.request (f.settings c) none)).1 =
      .ofListing (Listing.request (f.settings c) none).pageSize
        (f.claims root) := by
    rw [claims, ← hroot c.member]
    rfl
  have hentries : (f.claims root).take
      (Listing.request (f.settings c) none).pageSize =
      f.claims root := List.take_of_length_le hsize
  have hfollowing : Listing.following
      (.ofListing (Listing.request (f.settings c) none).pageSize
        (f.claims root)) = none := by
    simp [Listing.following, ScanResult.ofListing, Nat.not_lt.mpr hsize]
  rw [next_listed hc hphase, hpage]
  congr 1
  simp only [Admission.listed, hphase, Listing.start,
    Listing.receive, hfollowing]
  rw [ScanResult.ofListing, hentries, settings, hroot]
  rw [snapshot] at hs
  rw [hs]

omit [DecidableEq ι] in
/-- An owner with one claim at most may claim what is in no inventory. -/
theorem IsInventory.decide_eq (h : f.IsInventory root claims)
    (hkeys : f.HasClaimKeys root) {s : Snapshot} (hs : f.snapshot root = .ok s)
    {a : Admission} (hvalid : ClaimKey.defect? a.cidr = none)
    (hfresh : a.cidr ∉ claims.map (·.1)) (hone : f.count root a.uid ≤ 1) :
    a.decide s = .creating := by
  rcases snapshot_eq_ok hkeys hs with ⟨listed, rfl, hnodup, howns, howned⟩
  apply Admission.decide_of_within
  · cases howner : (Snapshot.ofList listed).ownerOf? a.cidr with
    | none => rfl
    | some owner =>
        rcases howns _ (Snapshot.mem_of_ownerOf?_ofList howner) with
          ⟨e, hlive, _⟩
        rw [h.live?_of_fresh hvalid hfresh] at hlive
        cases hlive
  · intro least hleast
    have hpos := Snapshot.minOther?_pos hnodup hleast
    rw [Snapshot.count_ofList hnodup, howned]
    omega

omit [DecidableEq ι] in
theorem IsInventory.of_live?_eq {g : Fleet ι} (h : f.IsInventory root claims)
    (hsame : forall key, g.store.live? g.now key = f.store.live? f.now key) :
    g.IsInventory root claims where
  nodup := h.nodup
  valid := h.valid
  holds_iff := by
    intro key uid hlead
    rw [← h.holds_iff key uid hlead, Holds, Holds, hsame]

omit [DecidableEq ι] in
theorem IsInventory.append {g : Fleet ι} (h : f.IsInventory root claims)
    {cidr owner : String}
    (hvalid : ClaimKey.defect? cidr = none) (hfresh : cidr ∉ claims.map (·.1))
    (hholds : forall key uid, g.Holds key uid <->
      f.Holds key uid ∨ (ClaimKey.ofCidr root cidr = key ∧ owner = uid)) :
    g.IsInventory root (claims ++ [(cidr, owner)]) where
  nodup := by
    rw [List.map_append, List.nodup_append]
    refine ⟨h.nodup, by simp, ?_⟩
    rintro name hname name' hname' rfl
    rw [List.map_singleton, List.mem_singleton] at hname'
    rw [hname'] at hname
    exact hfresh hname
  valid := by
    intro claim hclaim
    rcases List.mem_append.mp hclaim with hold | hnew
    · exact h.valid claim hold
    · rw [List.mem_singleton.mp hnew]
      exact hvalid
  holds_iff := by
    intro key uid hlead
    rw [hholds, h.holds_iff key uid hlead]
    constructor
    · rintro (⟨claim, hclaim, hboth⟩ | hboth)
      · exact ⟨claim, List.mem_append_left _ hclaim, hboth⟩
      · exact ⟨(cidr, owner), List.mem_append_right _ List.mem_cons_self, hboth⟩
    · rintro ⟨claim, hclaim, hboth⟩
      rcases List.mem_append.mp hclaim with hold | hnew
      · exact Or.inl ⟨claim, hold, hboth⟩
      · rw [List.mem_singleton.mp hnew] at hboth
        exact Or.inr hboth

theorem IsInventory.created (h : f.IsInventory root claims)
    (hroot : f.IsRooted root) {j : Nat} {c : Call ι} (hc : f.calls[j]? = some c)
    (hphase : c.admission.phase = .creating)
    (hvalid : ClaimKey.defect? c.admission.cidr = none)
    (hfresh : c.admission.cidr ∉ claims.map (·.1))
    (hcommand : (c.admission.command (f.settings c)).validate = .ok ()) :
    (f.next (.proceed j)).IsInventory root
      (claims ++ [(c.admission.cidr, c.admission.uid)]) ∧
      (f.next (.proceed j)).calls =
        (f.setCall j { c.admission with phase := .registering }).calls := by
  have hfree := h.live?_of_fresh hvalid hfresh
  rw [← key_eq hroot] at hfree
  have hcreated : exists w,
      (f.store.write f.now (c.admission.command (f.settings c))).1 = .ok w :=
    create_of_free hcommand hfree
  rcases hcreated with ⟨w, hw⟩
  have hstep := step_next f (.proceed j)
  constructor
  · refine h.append hvalid hfresh ?_
    intro key uid
    constructor
    · intro hholds
      rcases hstep.holds_before hroot hholds with
        hbefore | ⟨j', c', hact, hc', _, huid, hkey⟩
      · exact Or.inl hbefore
      · cases hact
        rw [hc] at hc'
        cases hc'
        exact Or.inr ⟨hkey, huid⟩
    · rintro (hbefore | ⟨rfl, rfl⟩)
      · exact hstep.holds_of_call trivial hbefore
      · exact owns_of_created hroot hc hphase hw
  · rw [next_created hc hphase, hw]
    simp only [Admission.created, hphase]
    rfl

/-!
# Claims from outside
-/

def withClaim (f : Fleet ι) (root cidr owner : String) : Fleet ι :=
  f.setStore (f.store.insert .set (ClaimKey.ofCidr root cidr) owner none)

omit [DecidableEq ι] in
theorem hasClaimKeys_withClaim (hkeys : f.HasClaimKeys root)
    (cidr owner : String) :
    (f.withClaim root cidr owner).HasClaimKeys root := by
  intro key e hget hlead
  rw [withClaim, store_setStore, get?_insert] at hget
  split at hget
  · rename_i hkey
    exact ⟨cidr, hkey.symm⟩
  · exact hkeys key e hget hlead

omit [DecidableEq ι] in
theorem IsInventory.withClaim (h : f.IsInventory root claims) {cidr : String}
    (hvalid : ClaimKey.defect? cidr = none) (hfresh : cidr ∉ claims.map (·.1))
    (owner : String) :
    (f.withClaim root cidr owner).IsInventory root
      (claims ++ [(cidr, owner)]) := by
  refine h.append hvalid hfresh ?_
  intro key uid
  rw [Holds, Fleet.withClaim, store_setStore, now_setStore, live?, get?_insert]
  split
  · rename_i hkey
    have hnone := h.live?_of_fresh hvalid hfresh
    rw [hkey] at hnone
    simp [Holds, hnone, Entry.hasLapsed, hkey]
  · rename_i hkey
    simp [Holds, live?, hkey]

end

end Fleet
end FairLease
