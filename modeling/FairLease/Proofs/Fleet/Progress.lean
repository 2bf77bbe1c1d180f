import FairLease.Proofs.Fleet.Flight

/-!
# What calls have listed

As long as no claim is removed, the pages of a listing add up: the claims found
so far are still there, and none of those that were there when the listing began
is missing from the part that has been read.
-/

namespace FairLease
namespace Fleet

open MemoryStore

variable {ι : Type} [DecidableEq ι]

/-!
# Claims that are not removed
-/

def KeepsClaims (start : Fleet ι) (acts : List (Act ι)) (root : String) :
    Prop :=
  forall n key, Text.startsWith key root = true ->
    (start.after acts n).store.live? (start.after acts n).now key ≠ none ->
    (start.after acts (n + 1)).store.live? (start.after acts (n + 1)).now key ≠
      none

section

variable {root : String} {start : Fleet ι} {acts : List (Act ι)}

theorem KeepsClaims.holds_succ (hkeeps : KeepsClaims start acts root)
    {key uid : String} {n : Nat} (hlead : Text.startsWith key root = true)
    (h : (start.after acts n).Holds key uid) :
    (start.after acts (n + 1)).Holds key uid := by
  rcases after_cases start acts n with ⟨_, hsame⟩ | ⟨act, _, hstep⟩
  · rw [hsame]
    exact h
  · refine hstep.holds (hkeeps n key hlead ?_) h
    rcases h with ⟨e, hlive, _⟩
    rw [hlive]
    simp

theorem KeepsClaims.holds (hkeeps : KeepsClaims start acts root)
    {key uid : String} {m n : Nat} (hmn : m ≤ n)
    (hlead : Text.startsWith key root = true)
    (h : (start.after acts m).Holds key uid) :
    (start.after acts n).Holds key uid := by
  induction hmn with
  | refl => exact h
  | step _ ih => exact hkeeps.holds_succ hlead ih

theorem KeepsClaims.count_le (hkeeps : KeepsClaims start acts root)
    (uid : String) {m n : Nat} (hmn : m ≤ n) :
    (start.after acts m).count root uid ≤
      (start.after acts n).count root uid := by
  apply Finset.card_le_card
  intro key hkey
  rw [mem_holdings_iff] at hkey ⊢
  exact ⟨hkey.left, hkeeps.holds hmn hkey.left hkey.right⟩

end

/-!
# Adding pages
-/

/-- The keys that are not yet accounted for once all pages before the token have
been read. -/
def isPendingAfter (token : Option String) (key : String) : Bool :=
  ScanRequest.isPending ⟨"", none, token⟩ key

def isLeftBy (page : ScanResult) (key : String) : Bool :=
  match Listing.following page with
  | some token => isPendingAfter (some token) key
  | none => false

/-- The claims were listed since `p`: they are in order and live after `n` acts,
and they contain everything that was live after `p` acts and is no longer
pending. -/
structure ListedSince (start : Fleet ι) (acts : List (Act ι)) (root : String)
    (p n : Nat) (pending : String -> Bool) (claims : List (String × String)) :
    Prop where
  sorted : (claims.map (fun claim => ClaimKey.ofCidr root claim.1)).Pairwise
    (fun a b => a < b)
  live : forall claim, claim ∈ claims ->
    (start.after acts n).Owns root claim.1 claim.2
  read : forall claim, claim ∈ claims ->
    pending (ClaimKey.ofCidr root claim.1) = false
  complete : forall key uid, Text.startsWith key root = true ->
    (start.after acts p).Holds key uid -> pending key = false ->
    exists claim, claim ∈ claims ∧ ClaimKey.ofCidr root claim.1 = key ∧
      claim.2 = uid

section

variable {root : String} {start : Fleet ι} {acts : List (Act ι)}

theorem ListedSince.later (hkeeps : KeepsClaims start acts root) {p n : Nat}
    {pending : String -> Bool} {claims : List (String × String)}
    (h : ListedSince start acts root p n pending claims) :
    ListedSince start acts root p (n + 1) pending claims :=
  { h with
    live := fun claim hclaim =>
      hkeeps.holds_succ (ClaimKey.startsWith_ofCidr root claim.1)
        (h.live claim hclaim) }

theorem listedSince_nil (n : Nat) :
    ListedSince start acts root n n (isPendingAfter none) [] where
  sorted := List.Pairwise.nil
  live := by simp
  read := by simp
  complete := by
    intro key uid _ _ hread
    cases hread

theorem listedSince_page
    (hkeeps : KeepsClaims start acts root) {p n : Nat} (hpn : p ≤ n)
    {r : ScanRequest}
    (hlead : r.lead = root) {claims more : List (String × String)}
    (h : ListedSince start acts root p n (isPendingAfter r.after) claims)
    (hmore : ((start.after acts n).store.scan
      (start.after acts n).now r).1.entries.map
        (fun kv => (kv.key, kv.value)) =
      more.map (fun claim => (ClaimKey.ofCidr root claim.1, claim.2))) :
    ListedSince start acts root p (n + 1)
      (isLeftBy ((start.after acts n).store.scan (start.after acts n).now r).1)
      (claims ++ more) where
  sorted := by
    rw [List.map_append, List.pairwise_append]
    refine ⟨h.sorted, ?_, ?_⟩
    · have hkeys : more.map (fun claim => ClaimKey.ofCidr root claim.1) =
          ((start.after acts n).store.scan (start.after acts n).now
            r).1.entries.map (·.key) := by
        have hmap := congrArg (List.map Prod.fst) hmore
        simpa [List.map_map, Function.comp_def] using hmap.symm
      rw [hkeys, List.pairwise_map]
      exact Listing.page_sorted _ _ _
    · intro a ha b hb
      rcases List.mem_map.mp ha with ⟨claim, hclaim, rfl⟩
      rcases List.mem_map.mp hb with ⟨new, hnew, rfl⟩
      rcases Listing.mem_entries_of_claim hmore hnew with ⟨kv, hkv, hkey, _⟩
      rcases Listing.mem_page hkv with ⟨_, hpending, _⟩
      rw [hkey] at hpending
      exact Listing.lt_of_isPending (h.read claim hclaim) hpending
  live := by
    intro claim hclaim
    apply hkeeps.holds_succ (ClaimKey.startsWith_ofCidr root claim.1)
    rcases List.mem_append.mp hclaim with hold | hnew
    · exact h.live claim hold
    · rcases Listing.mem_entries_of_claim hmore hnew with
        ⟨kv, hkv, hkey, hvalue⟩
      rcases Listing.mem_page hkv with ⟨_, _, e, hlive, hentry⟩
      rw [hkey] at hlive
      exact ⟨e, hlive, by rw [hentry, hvalue]⟩
  read := by
    intro claim hclaim
    unfold isLeftBy
    cases hfollowing : Listing.following
      ((start.after acts n).store.scan (start.after acts n).now r).1 with
    | none => rfl
    | some token =>
        simp only [isPendingAfter, ScanRequest.isPending,
          decide_eq_false_iff_not]
        rcases List.mem_append.mp hclaim with hold | hnew
        · exact Listing.accounted_before hfollowing (h.read claim hold)
        · rcases Listing.mem_entries_of_claim hmore hnew with ⟨kv, hkv, hkey, _⟩
          rw [← hkey]
          exact Listing.page_before hfollowing hkv
  complete := by
    intro key uid hroot hholds hread
    cases hpending : isPendingAfter r.after key with
    | false =>
        rcases h.complete key uid hroot hholds hpending with
          ⟨claim, hclaim, hkey, huid⟩
        exact ⟨claim, List.mem_append_left _ hclaim, hkey, huid⟩
    | true =>
        rcases hkeeps.holds hpn hroot hholds with ⟨e, hlive, hvalue⟩
        have hbefore : forall token, Listing.following
            ((start.after acts n).store.scan (start.after acts n).now r).1 =
              some token ->
              ¬ token < key := by
          intro token hfollowing
          unfold isLeftBy at hread
          rw [hfollowing] at hread
          simpa only [isPendingAfter, ScanRequest.isPending,
            decide_eq_false_iff_not] using hread
        rw [← hlead] at hroot
        rcases Listing.page_covers hlive hroot hpending hbefore with
          ⟨kv, hkv, hkey, hentry⟩
        rcases Listing.claim_of_mem_entries hmore hkv with
          ⟨claim, hclaim, hname, huid⟩
        exact ⟨claim, List.mem_append_right _ hclaim, by rw [hname, hkey],
          by rw [huid, hentry, hvalue]⟩

/-!
# Decisions

A call that goes on to create its claim has compared its owner with every other
one. The owner had no more claims when the listing began than anybody else who
held one has now, as far as they are counted at all.
-/

/-- The claims that `uid` had after `p` acts do not outnumber those that anybody
else who held one at the start has after `n` acts, up to the largest count there
is. -/
def WithinSince (start : Fleet ι) (acts : List (Act ι)) (root uid : String)
    (p n : Nat) : Prop :=
  forall o, o ≠ uid -> 0 < start.count root o ->
    min ((start.after acts p).count root uid) Snapshot.maxCount ≤
      min ((start.after acts n).count root o) Snapshot.maxCount

theorem WithinSince.later (hkeeps : KeepsClaims start acts root) {uid : String}
    {p n : Nat} (h : WithinSince start acts root uid p n) :
    WithinSince start acts root uid p (n + 1) := by
  intro o hne hpos
  have hbefore := h o hne hpos
  have hmore := hkeeps.count_le o (Nat.le_add_right n 1)
  omega

/-- A complete listing has all the claims an owner had when it began. -/
theorem ListedSince.count_le_owned {p n : Nat} {claims : List (String × String)}
    (h : ListedSince start acts root p n (fun _ => false) claims)
    (uid : String) :
    (start.after acts p).count root uid ≤ Snapshot.owned claims uid := by
  have hsub : (start.after acts p).holdings root uid ⊆
      ((claims.filter (fun claim => claim.2 == uid)).map
        (fun claim => ClaimKey.ofCidr root claim.1)).toFinset := by
    intro key hkey
    rw [mem_holdings_iff] at hkey
    rcases h.complete key uid hkey.left hkey.right rfl with
      ⟨claim, hclaim, hname, huid⟩
    rw [List.mem_toFinset, List.mem_map]
    exact ⟨claim, List.mem_filter.mpr ⟨hclaim, beq_iff_eq.mpr huid⟩, hname⟩
  calc (start.after acts p).count root uid
      ≤ _ := Finset.card_le_card hsub
    _ ≤ _ := List.toFinset_card_le _
    _ = Snapshot.owned claims uid := by
        rw [List.length_map, Snapshot.owned, List.countP_eq_length_filter]

/-- A listing has no more claims of an owner than are live. -/
theorem ListedSince.owned_le_count {p n : Nat} {pending : String -> Bool}
    {claims : List (String × String)}
    (h : ListedSince start acts root p n pending claims) (uid : String) :
    Snapshot.owned claims uid ≤ (start.after acts n).count root uid := by
  have hsub : ((claims.filter (fun claim => claim.2 == uid)).map
      (fun claim => ClaimKey.ofCidr root claim.1)).toFinset ⊆
        (start.after acts n).holdings root uid := by
    intro key hkey
    rw [List.mem_toFinset, List.mem_map] at hkey
    rcases hkey with ⟨claim, hclaim, rfl⟩
    rw [List.mem_filter] at hclaim
    rw [mem_holdings_iff]
    refine ⟨ClaimKey.startsWith_ofCidr root claim.1, ?_⟩
    have howns := h.live claim hclaim.left
    rw [beq_iff_eq.mp hclaim.right] at howns
    exact howns
  have hnodup : ((claims.filter (fun claim => claim.2 == uid)).map
      (fun claim => ClaimKey.ofCidr root claim.1)).Nodup := by
    have hsorted := h.sorted
    rw [List.pairwise_map] at hsorted
    unfold List.Nodup
    rw [List.pairwise_map]
    exact (hsorted.filter _).imp ne_of_lt
  have hcard := Finset.card_le_card hsub
  rw [List.toFinset_card_of_nodup hnodup, List.length_map,
    ← List.countP_eq_length_filter] at hcard
  exact hcard

theorem withinSince_of_listed
    (hkeeps : KeepsClaims start acts root) {uid : String} {p n : Nat}
    {claims : List (String × String)}
    (h : ListedSince start acts root p n (fun _ => false) claims)
    (hwithin : forall least, (Snapshot.ofList claims).minOther? uid =
      some least ->
      (Snapshot.ofList claims).count uid ≤ least) :
    WithinSince start acts root uid p n := by
  intro o hne hpos
  rcases Finset.card_pos.mp hpos with ⟨key, hkey⟩
  rw [mem_holdings_iff] at hkey
  have hheld : (start.after acts p).Holds key o :=
    hkeeps.holds (Nat.zero_le p) hkey.left hkey.right
  rcases h.complete key o hkey.left hheld rfl with
    ⟨⟨cidr, owner⟩, hclaim, _, howner⟩
  change owner = o at howner
  subst howner
  have hle :=
    Snapshot.count_le_of_within (nodup_of_sorted h.sorted) hwithin hne hclaim
  have hlow := h.count_le_owned uid
  have hhigh := h.owned_le_count owner
  omega

/-!
# Progress of a call
-/

/-- What a call knows after `n` acts, according to how far it has got. -/
structure Progress (start : Fleet ι) (acts : List (Act ι)) (root : String)
    (j : Nat) (a : Admission) (n : Nat) : Prop where
  fresh : forall found, a.phase = .listing (.reading found none) ->
    found = .empty
  listing : forall found token,
    a.phase = .listing (.reading found (some token)) ->
    exists p claims, p < n ∧ EntersAt start acts j p ∧
      found = Snapshot.ofList claims ∧
      ListedSince start acts root p n (isPendingAfter (some token)) claims
  creating : a.phase = .creating ->
    exists p, p < n ∧ EntersAt start acts j p ∧
      WithinSince start acts root a.uid p n

variable {j n : Nat}

theorem Progress.later (hkeeps : KeepsClaims start acts root) {a : Admission}
    (h : Progress start acts root j a n) :
    Progress start acts root j a (n + 1) where
  fresh := h.fresh
  listing := by
    intro found token hphase
    rcases h.listing found token hphase with
      ⟨p, claims, hp, henters, hfound, hlisted⟩
    exact ⟨p, claims, Nat.lt_succ_of_lt hp, henters, hfound,
      hlisted.later hkeeps⟩
  creating := by
    intro hphase
    rcases h.creating hphase with ⟨p, hp, henters, hwithin⟩
    exact ⟨p, Nat.lt_succ_of_lt hp, henters, hwithin.later hkeeps⟩

theorem progress_of_past {a : Admission} (h : a.stage = 2) :
    Progress start acts root j a n where
  fresh := by
    intro found hphase
    simp [Admission.stage, hphase] at h
  listing := by
    intro found token hphase
    simp [Admission.stage, hphase] at h
  creating := by
    intro hphase
    simp [Admission.stage, hphase] at h

theorem progress_of_reading {a : Admission} {claims : List (String × String)}
    {token : String}
    (hphase : a.phase =
      .listing (.reading (Snapshot.ofList claims) (some token))) {p : Nat}
    (hp : p < n) (henters : EntersAt start acts j p)
    (hlisted : ListedSince start acts root p n
      (isPendingAfter (some token)) claims) :
    Progress start acts root j a n where
  fresh := by
    intro found hphase'
    rw [hphase] at hphase'
    cases hphase'
  listing := by
    intro found token' hphase'
    rw [hphase] at hphase'
    cases hphase'
    exact ⟨p, claims, hp, henters, rfl, hlisted⟩
  creating := by
    intro hphase'
    rw [hphase] at hphase'
    cases hphase'

theorem progress_of_creating {a : Admission} (hphase : a.phase = .creating)
    {p : Nat} (hp : p < n) (henters : EntersAt start acts j p)
    (hwithin : WithinSince start acts root a.uid p n) :
    Progress start acts root j a n where
  fresh := by
    intro found hphase'
    rw [hphase] at hphase'
    cases hphase'
  listing := by
    intro found token hphase'
    rw [hphase] at hphase'
    cases hphase'
  creating := fun _ => ⟨p, hp, henters, hwithin⟩

/-- A page of a listing that began at `p` leads to the next one or to a
decision. -/
theorem progress_listed
    (hkeeps : KeepsClaims start acts root)
    (hroot : (start.after acts n).IsRooted root)
    (hkeys : (start.after acts n).HasClaimKeys root) {c : Call ι}
    {claims : List (String × String)}
    {token : Option String}
    (hphase : c.admission.phase =
      .listing (.reading (Snapshot.ofList claims) token)) {p : Nat}
    (hpn : p ≤ n) (hlisted : ListedSince start acts root p n
      (isPendingAfter token) claims)
    {r : ScanRequest} (hr : r = Listing.request
      ((start.after acts n).settings c) token)
    {a : Admission} (ha : a = c.admission.listed
      ((start.after acts n).settings c)
      (.ok ((start.after acts n).store.scan (start.after acts n).now r).1))
    (henters : a.stage = 1 -> EntersAt start acts j p) :
    Progress start acts root j a (n + 1) := by
  have hlead : r.lead = root := by
    rw [hr, Listing.request, settings, hroot]
  have hafter : r.after = token := by
    rw [hr, Listing.request]
  have hsound : forall kv,
      kv ∈ ((start.after acts n).store.scan (start.after acts n).now
        r).1.entries ->
        ClaimKey.IsEncoded root kv.key := by
    intro kv hkv
    rcases Listing.mem_page hkv with ⟨hkey, _, e, hlive, _⟩
    rw [hlead] at hkey
    exact hkeys _ _ (live?_eq_some_iff.mp hlive).left hkey
  rcases Admission.listed_cases hphase ((start.after acts n).settings c)
    ((start.after acts n).store.scan (start.after acts n).now r).1 with
    ⟨e, herror⟩ | ⟨all, hcollect, hnext⟩
  · rw [← ha] at herror
    exact progress_of_past (by simp [Admission.stage, herror])
  · rw [settings, hroot] at hcollect
    rcases Listing.collect_eq_ok hsound hcollect with ⟨more, hall, hmore⟩
    have hlist : all = Snapshot.ofList (claims ++ more) := by
      rw [hall, Snapshot.ofList, Snapshot.ofList, List.foldl_append]
    rw [← hafter] at hlisted
    have hpage := listedSince_page hkeeps hpn hlead hlisted hmore
    rw [← ha] at hnext
    rcases hnext with ⟨key, hfollowing, hreading⟩ | ⟨hfollowing, hdecide⟩
    · have hleft : isLeftBy
          ((start.after acts n).store.scan (start.after acts n).now r).1 =
          isPendingAfter (some key) := by
        funext k
        simp [isLeftBy, hfollowing]
      rw [hleft] at hpage
      rw [hlist] at hreading
      exact progress_of_reading hreading (Nat.lt_succ_of_le hpn)
        (henters (by simp [Admission.stage, hreading])) hpage
    · have hleft : isLeftBy
          ((start.after acts n).store.scan (start.after acts n).now r).1 =
          fun _ => false := by
        funext k
        simp [isLeftBy, hfollowing]
      rw [hleft] at hpage
      rw [hlist] at hdecide
      rcases Admission.decide_cases c.admission
        (Snapshot.ofList (claims ++ more)) with
        ⟨_, h⟩ | ⟨_, hwithin, h⟩ | h
      · rw [h] at hdecide
        exact progress_of_past (by simp [Admission.stage, hdecide])
      · rw [h] at hdecide
        refine progress_of_creating hdecide (Nat.lt_succ_of_le hpn)
          (henters (by simp [Admission.stage, hdecide])) ?_
        rw [ha, Admission.uid_listed]
        exact withinSince_of_listed hkeeps hpage hwithin
      · rw [h] at hdecide
        exact progress_of_past (by simp [Admission.stage, hdecide])

theorem progress_start (m : Manager) (uid cidr : String) :
    Progress start acts root j (m.attempt uid cidr) n := by
  rcases Admission.start_cases m.isCancelled uid cidr with
    ⟨e, hstart⟩ | ⟨_, hstart⟩
  · rw [Manager.attempt, hstart]
    exact progress_of_past rfl
  · rw [Manager.attempt, hstart]
    refine ⟨?_, ?_, ?_⟩
    · intro found hphase
      cases hphase
      rfl
    · intro found token hphase
      cases hphase
    · intro hphase
      cases hphase

/-- All calls of a run make progress in this sense. -/
theorem progress_after
    (hkeeps : KeepsClaims start acts root) (hroot : start.IsRooted root)
    (hkeys : start.HasClaimKeys root) (hcalls : start.calls = #[]) {c : Call ι}
    (hc : (start.after acts n).calls[j]? = some c) :
    Progress start acts root j c.admission n := by
  induction n generalizing c with
  | zero =>
      rw [after, stateAt_zero, hcalls] at hc
      simp at hc
  | succ n ih =>
      have hroot' : (start.after acts n).IsRooted root := isRooted_after hroot n
      have hkeys' : (start.after acts n).HasClaimKeys root :=
        hasClaimKeys_after hroot hkeys n
      rcases after_cases start acts n with ⟨_, hsame⟩ | ⟨act, _, hstep⟩
      · rw [hsame] at hc
        exact (ih hc).later hkeeps
      · rcases hstep.call_cases hc with
          ⟨d, hd, hmove⟩ | ⟨i, uid, cidr, _, _, rfl⟩
        · cases hmove with
          | stay => exact (ih hd).later hkeeps
          | @listed _ found token hphase =>
              cases token with
              | none =>
                  have hnil : found = Snapshot.ofList [] :=
                    (ih hd).fresh found hphase
                  rw [hnil] at hphase
                  refine progress_listed hkeeps hroot' hkeys' hphase
                    (Nat.le_refl n) (listedSince_nil n) rfl rfl ?_
                  intro hstage
                  exact ⟨d, _, hd, by simp [Admission.stage, hphase], hc,
                    hstage⟩
              | some token =>
                  rcases (ih hd).listing found token hphase with
                    ⟨p, claims, hp, henters, rfl, hlisted⟩
                  exact progress_listed hkeeps hroot' hkeys' hphase
                    (Nat.le_of_lt hp) hlisted rfl rfl (fun _ => henters)
          | created hphase =>
              apply progress_of_past
              rcases Admission.created_cases hphase
                ((start.after acts n).store.write (start.after acts n).now
                (d.admission.command ((start.after acts n).settings d))).1 with
                ⟨_, _, h⟩ | ⟨_, _, h | ⟨_, h⟩⟩ <;> simp [Admission.stage, h]
          | registered hphase =>
              apply progress_of_past
              simp [Admission.stage, Admission.registered_phase hphase]
        · exact progress_start _ uid cidr

end

end Fleet
end FairLease
