import FairLease.Proofs.Claim.Listing
import FairLease.Proofs.Claim.Snapshot
import FairLease.Proofs.Fleet.Basic

/-!
# Ownership

A stored claim belongs to one owner until its key is removed. Calls list claims
while others create and lose theirs, so that a listing is not a state of the
store; but whatever it shows was there while it went on.
-/

namespace FairLease
namespace Fleet

open MemoryStore

variable {ι : Type} [DecidableEq ι]

/-!
# Claim keys

All members keep their claims under one root. Renewals write over keys that are
there already, so that every new key under the root was made by a call.
-/

def IsRooted (root : String) (f : Fleet ι) : Prop :=
  forall i, (f.members i).manager.settings.root = root

def HasClaimKeys (root : String) (f : Fleet ι) : Prop :=
  forall key e, f.store.get? key = some e -> Text.startsWith key root = true ->
    ClaimKey.IsEncoded root key

omit [DecidableEq ι] in
theorem key_eq {root : String} {f : Fleet ι} (hroot : f.IsRooted root)
    (c : Call ι) :
    c.admission.key (f.settings c) = ClaimKey.ofCidr root c.admission.cidr := by
  rw [Admission.key, settings, hroot]

theorem Step.isRooted {root : String} {f g : Fleet ι} {act : Act ι}
    (h : Step f act g) (hf : f.IsRooted root) : g.IsRooted root := by
  intro i
  rw [h.settings, hf i]

theorem Step.hasClaimKeys {root : String} {f g : Fleet ι} {act : Act ι}
    (h : Step f act g) (hroot : f.IsRooted root) (hf : f.HasClaimKeys root) :
    g.HasClaimKeys root := by
  intro key e hget hlead
  rcases h.store_cases with
    hpurged | ⟨j, c, e', _, _, _, _, _, _, hreplaced⟩ |
      ⟨i, id, r, old, e', _, _, hlive, _, _, hreplaced⟩ | ⟨k, _, hreplaced⟩
  · exact hf key e (hpurged.get?_of_get? hget) hlead
  · by_cases hkey : c.admission.key (f.settings c) = key
    · rw [← hkey, key_eq hroot]
      exact ⟨_, rfl⟩
    · rw [hreplaced key, if_neg hkey] at hget
      exact hf key e hget hlead
  · by_cases hkey : r.lease.key = key
    · subst hkey
      exact hf _ _ (live?_eq_some_iff.mp hlive).left hlead
    · rw [hreplaced key, if_neg hkey] at hget
      exact hf key e hget hlead
  · by_cases hkey : k = key
    · rw [hreplaced key, if_pos hkey] at hget
      cases hget
    · rw [hreplaced key, if_neg hkey] at hget
      exact hf key e hget hlead

omit [DecidableEq ι] in
theorem settings_of_new {s : ClaimSettings} {m : Manager}
    (h : Manager.new s = .ok m) :
    m.settings = s ∧ m.isCancelled = false ∧ m.registry = .empty := by
  unfold Manager.new at h
  cases hvalid : s.validate with
  | error e => simp [hvalid, Except.map] at h
  | ok _ =>
      simp only [hvalid, Except.map] at h
      cases h
      exact ⟨rfl, rfl, rfl⟩

section

variable {root : String} {start : Fleet ι} {acts : List (Act ι)}

omit [DecidableEq ι] in
theorem IsFresh.isRooted (h : start.IsFresh root) : start.IsRooted root := by
  intro i
  rcases h.made i with ⟨s, hs, hnew⟩
  rw [(settings_of_new hnew).left, hs]

omit [DecidableEq ι] in
theorem IsFresh.hasClaimKeys (h : start.IsFresh root) :
    start.HasClaimKeys root := by
  intro key e hget _
  rw [h.store, get?_empty] at hget
  cases hget

theorem isRooted_after (hstart : start.IsRooted root) (n : Nat) :
    (start.after acts n).IsRooted root :=
  after_invariant hstart (fun _ _ _ h hf => h.isRooted hf) n

theorem hasClaimKeys_after (hroot : start.IsRooted root)
    (hkeys : start.HasClaimKeys root) (n : Nat) :
    (start.after acts n).HasClaimKeys root := by
  have hboth : (start.after acts n).IsRooted root ∧
      (start.after acts n).HasClaimKeys root :=
    after_invariant (P := fun f => f.IsRooted root ∧
      f.HasClaimKeys root) ⟨hroot, hkeys⟩
      (fun _ _ _ h hf => ⟨h.isRooted hf.left,
        h.hasClaimKeys hf.left hf.right⟩) n
  exact hboth.right

end

/-!
# What calls get to see
-/

def Holds (f : Fleet ι) (key uid : String) : Prop :=
  exists e, f.store.live? f.now key = some e ∧ e.value = uid

def Owns (f : Fleet ι) (root cidr uid : String) : Prop :=
  f.Holds (ClaimKey.ofCidr root cidr) uid

def IsUnderWay (f : Fleet ι) (j : Nat) : Prop :=
  exists c, f.calls[j]? = some c ∧ c.admission.result? = none

def HeldAt (start : Fleet ι) (acts : List (Act ι)) (root : String) (j : Nat)
    (cidr uid : String) (m : Nat) : Prop :=
  (start.after acts m).IsUnderWay j ∧ (start.after acts m).Owns root cidr uid

theorem next_listed {f : Fleet ι} {j : Nat} {c : Call ι} {found : Snapshot}
    {token : Option String} (hc : f.calls[j]? = some c)
    (hphase : c.admission.phase = .listing (.reading found token)) :
    f.next (.proceed j) =
      (f.setStore (f.store.scan f.now
        (Listing.request (f.settings c) token)).2).setCall j
        (c.admission.listed (f.settings c)
          (.ok (f.store.scan f.now
            (Listing.request (f.settings c) token)).1)) := by
  simp [next, proceed, hc, hphase]

theorem next_created {f : Fleet ι} {j : Nat} {c : Call ι}
    (hc : f.calls[j]? = some c) (hphase : c.admission.phase = .creating) :
    f.next (.proceed j) =
      (f.setStore (f.store.write f.now
        (c.admission.command (f.settings c))).2).setCall j
        (c.admission.created
          (f.store.write f.now (c.admission.command (f.settings c))).1) := by
  simp [next, proceed, hc, hphase]

/-- A claim that a page adds to a listing is live when the page has been
read. -/
theorem owns_of_listed
    {root : String} {f : Fleet ι} (hroot : f.IsRooted root)
    (hkeys : f.HasClaimKeys root)
    {j : Nat} {c : Call ι} {found all : Snapshot} {token : Option String}
    (hc : f.calls[j]? = some c)
    (hphase : c.admission.phase = .listing (.reading found token))
    (hcollect : Listing.collect root found
      (f.store.scan f.now (Listing.request (f.settings c) token)).1.entries =
        .ok all)
    {cidr uid : String} (howner : all.ownerOf? cidr = some uid) :
    found.ownerOf? cidr = some uid ∨
      (f.next (.proceed j)).Owns root cidr uid := by
  have hsound : forall kv,
      kv ∈ (f.store.scan f.now
        (Listing.request (f.settings c) token)).1.entries ->
        ClaimKey.IsEncoded root kv.key := by
    intro kv hkv
    rcases Listing.mem_page hkv with ⟨hlead, _, e, hlive, _⟩
    rw [Listing.request, settings, hroot] at hlead
    exact hkeys _ _ (live?_eq_some_iff.mp hlive).left hlead
  rcases Listing.collect_eq_ok hsound hcollect with ⟨claims, rfl, hclaims⟩
  rcases Snapshot.ownerOf?_foldl howner with hfound | hmem
  · exact Or.inl hfound
  · rcases Listing.mem_entries_of_claim hclaims hmem with
      ⟨kv, hkv, hkey, howned⟩
    rcases Listing.mem_page hkv with ⟨_, _, e, hlive, hvalue⟩
    rw [hkey] at hlive
    refine Or.inr ⟨e, ?_, hvalue.trans howned⟩
    rw [next_listed hc hphase, store_setCall, store_setStore, now_setCall,
      now_setStore, (purged_scan f.store f.now _).live?_eq, hlive]

theorem owns_of_created
    {root : String} {f : Fleet ι} (hroot : f.IsRooted root) {j : Nat}
    {c : Call ι}
    (hc : f.calls[j]? = some c) (hphase : c.admission.phase = .creating)
    {w : WriteResult}
    (hresult : (f.store.write f.now (c.admission.command (f.settings c))).1 =
      .ok w) :
    (f.next (.proceed j)).Owns root c.admission.cidr c.admission.uid := by
  rcases create_cases f.store f.now (c.admission.key (f.settings c))
    c.admission.uid
    (f.settings c).ttlMs with
      ⟨e, herror, _⟩ | ⟨_, e, _, _, hvalue, hlapsed, hreplaced⟩
  · rw [Admission.command, herror] at hresult
    cases hresult
  · refine ⟨e, ?_, hvalue⟩
    rw [next_created hc hphase, store_setCall, store_setStore, now_setCall,
      now_setStore, live?_eq_some_iff, ← key_eq hroot, Admission.command,
      hreplaced _, if_pos rfl]
    exact ⟨rfl, hlapsed⟩

/-!
# What calls account for

Each claim that a call has listed was live while the call was under way, and so
was the claim that it is granted.
-/

/-- What a call has learned by the time of `n` acts was true at some moment of
the call. -/
structure Accounts (start : Fleet ι) (acts : List (Act ι)) (root : String)
    (j : Nat) (a : Admission) (n : Nat) : Prop where
  listed : forall found token, a.phase = .listing (.reading found token) ->
    forall cidr uid, found.ownerOf? cidr = some uid -> exists m, m ≤ n ∧
      HeldAt start acts root j cidr uid m
  granted : a.phase = .registering ∨ a.phase = .finished (.ok true) ->
    exists m, m ≤ n ∧ HeldAt start acts root j a.cidr a.uid m

section

variable {root : String} {start : Fleet ι} {acts : List (Act ι)} {j n : Nat}

theorem Accounts.later {a : Admission} (h : Accounts start acts root j a n) :
    Accounts start acts root j a (n + 1) where
  listed := by
    intro found token hphase cidr uid howner
    rcases h.listed found token hphase cidr uid howner with ⟨m, hm, hheld⟩
    exact ⟨m, Nat.le_succ_of_le hm, hheld⟩
  granted := by
    intro hphase
    rcases h.granted hphase with ⟨m, hm, hheld⟩
    exact ⟨m, Nat.le_succ_of_le hm, hheld⟩

theorem accounts_of_finished {a : Admission} {result : Except ClaimError Bool}
    (h : a.phase = .finished result) (hresult : result ≠ .ok true) :
    Accounts start acts root j a n where
  listed := by
    intro found token hphase
    rw [h] at hphase
    cases hphase
  granted := by
    intro hphase
    rw [h] at hphase
    rcases hphase with hphase | hphase
    · cases hphase
    · cases hphase
      exact absurd rfl hresult

theorem accounts_of_creating {a : Admission} (h : a.phase = .creating) :
    Accounts start acts root j a n where
  listed := by
    intro found token hphase
    rw [h] at hphase
    cases hphase
  granted := by
    intro hphase
    rw [h] at hphase
    rcases hphase with hphase | hphase <;> cases hphase

theorem accounts_of_registering {a : Admission} (h : a.phase = .registering)
    (hheld : exists m, m ≤ n ∧ HeldAt start acts root j a.cidr a.uid m) :
    Accounts start acts root j a n where
  listed := by
    intro found token hphase
    rw [h] at hphase
    cases hphase
  granted := fun _ => hheld

omit [DecidableEq ι] in
theorem isUnderWay_of_phase {f : Fleet ι} {c : Call ι}
    (hc : f.calls[j]? = some c)
    (h : forall result, c.admission.phase ≠ .finished result) :
    f.IsUnderWay j := by
  refine ⟨c, hc, ?_⟩
  unfold Admission.result?
  split
  · rename_i result hphase
    exact absurd hphase (h result)
  · rfl

theorem accounts_listed
    (hroot : (start.after acts n).IsRooted root)
    (hkeys : (start.after acts n).HasClaimKeys root)
    (hact : acts[n]? = some (.proceed j)) {c : Call ι} {found : Snapshot}
    {token : Option String}
    (hc : (start.after acts n).calls[j]? = some c)
    (hphase : c.admission.phase = .listing (.reading found token))
    (h : Accounts start acts root j c.admission n) {a : Admission}
    (ha : a = c.admission.listed ((start.after acts n).settings c) (.ok
      ((start.after acts n).store.scan (start.after acts n).now
        (Listing.request ((start.after acts n).settings c) token)).1))
    (hafter : (start.after acts (n + 1)).calls[j]? = some ⟨c.member, a⟩) :
    Accounts start acts root j a (n + 1) := by
  have hseen {all : Snapshot} {cidr uid : String}
      (hcollect : Listing.collect root found
        ((start.after acts n).store.scan (start.after acts n).now
          (Listing.request ((start.after acts n).settings c) token)).1.entries =
            .ok all)
      (hway : (start.after acts (n + 1)).IsUnderWay j)
      (howner : all.ownerOf? cidr = some uid) :
      exists m, m ≤ n + 1 ∧ HeldAt start acts root j cidr uid m := by
    rcases owns_of_listed hroot hkeys hc hphase hcollect howner with
      hfound | howns
    · exact h.later.listed found token hphase cidr uid hfound
    · rw [← after_succ hact] at howns
      exact ⟨n + 1, Nat.le_refl _, hway, howns⟩
  rcases Admission.listed_cases hphase ((start.after acts n).settings c)
    ((start.after acts n).store.scan (start.after acts n).now
      (Listing.request ((start.after acts n).settings c) token)).1 with
    ⟨e, herror⟩ | ⟨all, hcollect, ⟨key, _, hreading⟩ | ⟨_, hdecide⟩⟩
  · rw [← ha] at herror
    exact accounts_of_finished herror (by simp)
  · rw [← ha] at hreading
    rw [settings, hroot] at hcollect
    refine ⟨?_, ?_⟩
    · intro found' token' hphase' cidr uid howner
      rw [hreading] at hphase'
      cases hphase'
      exact hseen hcollect
        (isUnderWay_of_phase hafter (by simp [hreading])) howner
    · intro hgranted
      rw [hreading] at hgranted
      rcases hgranted with hgranted | hgranted <;> cases hgranted
  · rw [← ha] at hdecide
    rw [settings, hroot] at hcollect
    rcases Admission.decide_cases c.admission all with
      ⟨howner, hregistering⟩ | ⟨_, _, hcreating⟩ | hrefused
    · rw [hregistering] at hdecide
      apply accounts_of_registering hdecide
      rw [ha, Admission.uid_listed, Admission.cidr_listed]
      exact hseen hcollect
        (isUnderWay_of_phase hafter (by simp [hdecide])) howner
    · rw [hcreating] at hdecide
      exact accounts_of_creating hdecide
    · rw [hrefused] at hdecide
      exact accounts_of_finished hdecide (by simp)

theorem accounts_created
    (hroot : (start.after acts n).IsRooted root)
    (hact : acts[n]? = some (.proceed j)) {c : Call ι}
    (hc : (start.after acts n).calls[j]? = some c)
    (hphase : c.admission.phase = .creating)
    {a : Admission}
    (ha : a = c.admission.created
      ((start.after acts n).store.write (start.after acts n).now
      (c.admission.command ((start.after acts n).settings c))).1)
    (hafter : (start.after acts (n + 1)).calls[j]? = some ⟨c.member, a⟩) :
    Accounts start acts root j a (n + 1) := by
  rcases Admission.created_cases hphase ((start.after acts n).store.write
    (start.after acts n).now
      (c.admission.command ((start.after acts n).settings c))).1 with
    ⟨w, hresult, hregistering⟩ | ⟨e, _, hrefused | ⟨e', hfailed⟩⟩
  · rw [← ha] at hregistering
    apply accounts_of_registering hregistering
    have howns := owns_of_created hroot hc hphase hresult
    rw [← after_succ hact] at howns
    refine ⟨n + 1, Nat.le_refl _,
      isUnderWay_of_phase hafter (by simp [hregistering]), ?_⟩
    rw [ha, Admission.uid_created, Admission.cidr_created]
    exact howns
  · rw [← ha] at hrefused
    exact accounts_of_finished hrefused (by simp)
  · rw [← ha] at hfailed
    exact accounts_of_finished hfailed (by simp)

theorem accounts_registered {c : Call ι}
    (hphase : c.admission.phase = .registering)
    (h : Accounts start acts root j c.admission n) :
    Accounts start acts root j c.admission.registered (n + 1) where
  listed := by
    intro found token hphase'
    rw [Admission.registered_phase hphase] at hphase'
    cases hphase'
  granted := by
    intro _
    rw [Admission.uid_registered, Admission.cidr_registered]
    exact h.later.granted (Or.inl hphase)

theorem accounts_start (m : Manager) (uid cidr : String) :
    Accounts start acts root j (m.attempt uid cidr) n := by
  rcases Admission.start_cases m.isCancelled uid cidr with
    ⟨e, hstart⟩ | ⟨_, hstart⟩
  · rw [Manager.attempt, hstart]
    exact accounts_of_finished rfl (by simp)
  · rw [Manager.attempt, hstart]
    refine ⟨?_, ?_⟩
    · intro found token hphase cidr' uid' howner
      cases hphase
      rw [Snapshot.ownerOf?_empty] at howner
      cases howner
    · intro hphase
      rcases hphase with hphase | hphase <;> cases hphase

theorem accounts_after (hfresh : start.IsFresh root) {c : Call ι}
    (hc : (start.after acts n).calls[j]? = some c) :
    Accounts start acts root j c.admission n := by
  induction n generalizing c with
  | zero =>
      rw [after, stateAt_zero, hfresh.calls] at hc
      simp at hc
  | succ n ih =>
      have hroot : (start.after acts n).IsRooted root :=
        isRooted_after hfresh.isRooted n
      have hkeys : (start.after acts n).HasClaimKeys root :=
        hasClaimKeys_after hfresh.isRooted hfresh.hasClaimKeys n
      rcases after_cases start acts n with ⟨_, hsame⟩ | ⟨act, hact, hstep⟩
      · rw [hsame] at hc
        exact (ih hc).later
      · rcases hstep.call_cases hc with
          ⟨c', hc', hmove⟩ | ⟨i, uid, cidr, _, _, rfl⟩
        · cases hmove with
          | stay => exact (ih hc').later
          | listed hphase =>
              exact accounts_listed hroot hkeys hact hc' hphase (ih hc') rfl hc
          | created hphase =>
              exact accounts_created hroot hact hc' hphase rfl hc
          | registered hphase => exact accounts_registered hphase (ih hc')
        · exact accounts_start _ uid cidr

/-- A claim that was granted belonged to its owner while the call for it was
under way. -/
theorem heldAt_of_granted (hfresh : start.IsFresh root) {c : Call ι}
    (hc : (start.after acts n).calls[j]? = some c)
    (hgranted : c.admission.result? = some (.ok true)) :
    exists m, m < n ∧ HeldAt start acts root j c.admission.cidr
      c.admission.uid m := by
  have hphase : c.admission.phase = .finished (.ok true) := by
    unfold Admission.result? at hgranted
    split at hgranted
    · rename_i result hphase
      rw [hphase, Option.some.inj hgranted]
    · cases hgranted
  rcases (accounts_after hfresh hc).granted (Or.inr hphase) with ⟨m, hm, hheld⟩
  refine ⟨m, Nat.lt_of_le_of_ne hm ?_, hheld⟩
  intro heq
  rcases hheld.left with ⟨c', hc', hresult⟩
  rw [heq, hc] at hc'
  cases hc'
  rw [hgranted] at hresult
  cases hresult

omit [DecidableEq ι] in
theorem Owns.value? {f : Fleet ι} {cidr uid : String}
    (h : f.Owns root cidr uid) :
    f.store.value? (ClaimKey.ofCidr root cidr) = some uid := by
  rcases h with ⟨e, hlive, hvalue⟩
  rw [MemoryStore.value?, (live?_eq_some_iff.mp hlive).left,
    Option.map_some, hvalue]

/-- Between two owners of a claim its key is removed. -/
theorem removed_between_owners {cidr uid uid' : String} {m n : Nat}
    (hmn : m ≤ n) (hm : (start.after acts m).Owns root cidr uid)
    (hn : (start.after acts n).Owns root cidr uid') (hne : uid ≠ uid') :
    RemovedBetween (start.after acts m).store (start.after acts n).store
      (ClaimKey.ofCidr root cidr) :=
  (keepsValues_after hmn).removed_of_ne hm.value? hn.value? hne

end

/-!
# Ownership as a whole
-/

/-- What a renewal may do to the key of any claim: nothing appears where nothing
could be seen, and an entry that is not the renewal's own stays as it is or is
removed because it has lapsed. -/
theorem Step.renew_frame {f g : Fleet ι} {i : ι} {id : Nat} {r : Renewal}
    (h : Step f (.renew i id) g)
    (hr : (f.members i).manager.renewal? id = some r) (key : String) :
    (f.store.live? f.now key = none -> g.store.live? g.now key = none) ∧
      forall e, f.store.get? key = some e -> key ≠ r.lease.key ∨
        e.value ≠ r.lease.owner ->
        g.store.get? key = some e ∨
          (e.hasLapsed f.now = true ∧ g.store.get? key = none) := by
  have hnow : g.now = f.now := by
    rcases h.now with hsame | ⟨_, hact, _⟩
    · exact hsame
    · cases hact
  rw [hnow]
  rcases h.store_cases with
    hpurged | ⟨_, _, _, hact, _⟩ | ⟨i', id', r', old, e', hact, hr', hlive,
      hold, _, hreplaced⟩ |
      ⟨_, hact, _⟩
  · refine ⟨fun hnone => by rw [hpurged.live?_eq, hnone], ?_⟩
    intro e hget _
    rcases hpurged key with hsame | ⟨hnone, hgone⟩
    · exact Or.inl (hsame.trans hget)
    · refine Or.inr ⟨?_, hgone⟩
      cases hlapsed : e.hasLapsed f.now with
      | true => rfl
      | false =>
          rw [live?_eq_some_iff.mpr ⟨hget, hlapsed⟩] at hnone
          cases hnone
  · cases hact
  · cases hact
    rw [hr] at hr'
    cases hr'
    by_cases hkey : r.lease.key = key
    · subst hkey
      constructor
      · intro hnone
        rw [hlive] at hnone
        cases hnone
      · intro e hget hother
        rw [(live?_eq_some_iff.mp hlive).left] at hget
        cases hget
        rcases hother with hother | hother
        · exact absurd rfl hother
        · exact absurd hold hother
    · have hsame := hreplaced key
      rw [if_neg hkey] at hsame
      refine ⟨fun hnone => ?_, fun e hget _ => Or.inl (hsame.trans hget)⟩
      rw [live?, hsame]
      exact hnone
  · cases hact

/-- Any number of managers on one store, whatever they do in whatever order: (1)
a stored value stays until its key is deleted or expires; (2) a renewal makes no
key appear and leaves the claims of others alone; (3) who is granted a claim
owned it at a moment of the call; (4) so that between the grants of one claim to
two owners its key was removed. -/
theorem ownership_is_safe {root : String} (start : Fleet ι)
    (acts : List (Act ι)) (hfresh : start.IsFresh root) :
    (forall key value m n, m ≤ n ->
      (start.after acts m).store.value? key = some value ->
      RemovedBetween (start.after acts m).store (start.after acts n).store key ∨
        (start.after acts n).store.value? key = some value) ∧
    (forall i id n r, acts[n]? = some (.renew i id) ->
      ((start.after acts n).members i).manager.renewal? id = some r ->
        forall key, ((start.after acts n).store.live?
          (start.after acts n).now key = none ->
          (start.after acts (n + 1)).store.live?
            (start.after acts (n + 1)).now key = none) ∧
        forall e, (start.after acts n).store.get? key = some e ->
          key ≠ r.lease.key ∨ e.value ≠ r.lease.owner ->
          (start.after acts (n + 1)).store.get? key = some e ∨
            (e.hasLapsed (start.after acts n).now = true ∧
              (start.after acts (n + 1)).store.get? key = none)) ∧
    (forall n j c, (start.after acts n).calls[j]? = some c ->
      c.admission.result? = some (.ok true) ->
      exists m, m < n ∧ HeldAt start acts root j c.admission.cidr
        c.admission.uid m) ∧
    (forall n j j' c c', (start.after acts n).calls[j]? = some c ->
      (start.after acts n).calls[j']? = some c' ->
      c.admission.result? = some (.ok true) ->
      c'.admission.result? = some (.ok true) ->
      c.admission.cidr = c'.admission.cidr ->
      c.admission.uid ≠ c'.admission.uid ->
      exists m m', m < n ∧ m' < n ∧
        HeldAt start acts root j c.admission.cidr c.admission.uid m ∧
        HeldAt start acts root j' c'.admission.cidr c'.admission.uid m' ∧
        RemovedBetween (start.after acts (min m m')).store
          (start.after acts (max m m')).store
          (ClaimKey.ofCidr root c.admission.cidr)) := by
  refine ⟨?_, ?_, ?_, ?_⟩
  · intro key value m n hmn hvalue
    exact (keepsValues_after hmn).kept key value hvalue
  · intro i id n r hact hr key
    rcases after_cases start acts n with ⟨hnone, _⟩ | ⟨act, hact', hstep⟩
    · rw [hact] at hnone
      cases hnone
    · rw [hact] at hact'
      cases hact'
      exact hstep.renew_frame hr key
  · intro n j c hc hgranted
    exact heldAt_of_granted hfresh hc hgranted
  · intro n j j' c c' hc hc' hgranted hgranted' hcidr hne
    rcases heldAt_of_granted hfresh hc hgranted with ⟨m, hm, hheld⟩
    rcases heldAt_of_granted hfresh hc' hgranted' with ⟨m', hm', hheld'⟩
    refine ⟨m, m', hm, hm', hheld, hheld', ?_⟩
    have howns := hheld'.right
    rw [← hcidr] at howns
    rcases Nat.le_total m m' with hle | hle
    · rw [Nat.min_eq_left hle, Nat.max_eq_right hle]
      exact removed_between_owners hle hheld.right howns hne
    · rw [Nat.min_eq_right hle, Nat.max_eq_left hle]
      exact removed_between_owners hle howns hheld.right hne.symm

def idle (s : ClaimSettings) : Fleet ι :=
  { now := 0
    store := .empty
    members := fun _ =>
      { manager := { settings := s, isCancelled := false, registry := .empty }
        replies := fun _ => none }
    calls := #[] }

omit [DecidableEq ι] in
theorem isFresh_idle {root : String} {s : ClaimSettings} (hroot : s.root = root)
    (h : s.validate = .ok ()) : (idle s : Fleet ι).IsFresh root where
  store := rfl
  calls := rfl
  made := fun _ => ⟨s, hroot, by rw [Manager.new, h]; rfl⟩
  silent := fun _ _ => rfl

/-- Two managers are granted the same claim, one after it was taken away from
the other. -/
def handingOver : List (Act Bool) :=
  [.begin false "a" "x", .proceed 0, .proceed 0, .proceed 0,
    .delete "/ipclaim/x", .begin true "b" "x", .proceed 1,
    .proceed 1, .proceed 1]

theorem ownership_is_safe_handingOver :
    exists m m', m < 9 ∧ m' < 9 ∧
      HeldAt (idle .default) handingOver "/ipclaim/" 0 "x" "a" m ∧
      HeldAt (idle .default) handingOver "/ipclaim/" 1 "x" "b" m' ∧
      RemovedBetween ((idle .default).after handingOver (min m m')).store
        ((idle .default).after handingOver (max m m')).store
          (ClaimKey.ofCidr "/ipclaim/" "x") := by
  have hfresh : (idle .default : Fleet Bool).IsFresh "/ipclaim/" :=
    isFresh_idle rfl rfl
  rcases ownership_is_safe (idle .default) handingOver hfresh with
    ⟨_, _, _, hremoved⟩
  have hfirst : ((idle .default).after handingOver 9).calls[0]? =
      some ⟨false, "a", "x", .finished (.ok true)⟩ := rfl
  have hsecond : ((idle .default).after handingOver 9).calls[1]? =
      some ⟨true, "b", "x", .finished (.ok true)⟩ := rfl
  have hboth := hremoved 9 0 1 _ _ hfirst hsecond rfl rfl rfl (by decide)
  exact hboth

end Fleet
end FairLease
