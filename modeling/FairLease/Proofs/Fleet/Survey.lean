import Mathlib.Logic.Function.Iterate
import FairLease.Proofs.Claim.Allocation
import FairLease.Proofs.Fleet.Inventory

/-!
# Listings at one moment

A listing that nothing interferes with is a snapshot of the live claims, however
long its pages are. A page shows as many of the claims that are left as fit on
it, and the key that leads on leaves exactly the others.
-/

namespace FairLease

namespace Listing

/-!
# Pages of a sorted list
-/

/-- Of a list of claims in order, those before `rest` have been read. -/
structure Reads (root : String) (all rest : List KeyValue) (found : Snapshot)
    (after : Option String) : Prop where
  read : exists front, all = front ++ rest ∧
    collect root .empty front = .ok found
  pending : all.filter
    (fun kv => (ScanRequest.mk root none after).isPending kv.key) = rest

theorem reads_start (root : String) (all : List KeyValue) :
    Reads root all all .empty none where
  read := ⟨[], rfl, rfl⟩
  pending := List.filter_eq_self.mpr fun _ _ => rfl

section

variable {root : String} {all rest : List KeyValue} {found : Snapshot}
  {after : Option String}

theorem Reads.collect_eq (h : Reads root all rest found after) (n : Nat) :
    collect root .empty all =
      match collect root found (rest.take n) with
      | .ok found' => collect root found' (rest.drop n)
      | .error e => .error e := by
  rcases h.read with ⟨front, hall, hfront⟩
  have hrest := collect_append root found (rest.take n) (rest.drop n)
  rw [List.take_append_drop] at hrest
  rw [hall, collect_append, hfront]
  exact hrest

theorem Reads.turn (h : Reads root all rest found after)
    (hsorted : all.Pairwise (fun a b => a.key < b.key)) {pageSize : Nat}
    {token : String}
    (hfollowing : following (.ofListing pageSize rest) = some token)
    {found' : Snapshot}
    (hcollect : collect root found (rest.take pageSize) = .ok found') :
    Reads root all (rest.drop pageSize) found' (some token) := by
  rcases h.read with ⟨front, hall, hfront⟩
  rcases following_eq_some hfollowing with ⟨front', last, hfront', hkey⟩
  refine ⟨⟨front ++ rest.take pageSize, ?_, ?_⟩, ?_⟩
  · rw [List.append_assoc, List.take_append_drop, hall]
  · rw [collect_append, hfront]
    exact hcollect
  · have hlist : all = front ++ front' ++ [last] ++ rest.drop pageSize := by
      rw [hall, List.append_assoc front, ← hfront', List.append_assoc,
        List.take_append_drop]
    rw [hlist] at hsorted ⊢
    rw [← hkey]
    exact filter_after_last KeyValue.key hsorted

/-- A page either ends the listing with all claims, or leaves fewer of them. -/
theorem Reads.receive_cases (hsorted : all.Pairwise (fun a b => a.key < b.key))
    (h : Reads root all rest found after) {pageSize : Nat}
    (hpos : 0 < pageSize) :
    receive root (.ok (.ofListing pageSize rest)) (.reading found after) =
        .finished (collect root .empty all) ∨
      exists rest' found' token,
        receive root (.ok (.ofListing pageSize rest)) (.reading found after) =
          .reading found' (some token) ∧
        Reads root all rest' found' (some token) ∧
          rest'.length < rest.length := by
  have hall := h.collect_eq pageSize
  have hentries : (ScanResult.ofListing pageSize rest).entries =
      rest.take pageSize := rfl
  simp only [receive, hentries]
  cases hcollect : collect root found (rest.take pageSize) with
  | error e =>
      rw [hcollect] at hall
      exact Or.inl (by rw [hall])
  | ok found' =>
      rw [hcollect] at hall
      cases hfollowing : following (.ofListing pageSize rest) with
      | none =>
          have hwhole := following_eq_none hpos hfollowing
          rw [List.take_eq_self_iff] at hwhole
          rw [List.drop_eq_nil_of_le hwhole] at hall
          exact Or.inl (by rw [hall]; rfl)
      | some token =>
          refine Or.inr ⟨rest.drop pageSize, found', token, rfl,
            h.turn hsorted hfollowing hcollect, ?_⟩
          rcases following_eq_some hfollowing with ⟨front, last, hfront, _⟩
          have hne : 0 < rest.length := by
            cases rest with
            | nil => simp at hfront
            | cons => exact Nat.succ_pos _
          rw [List.length_drop]
          omega

end

/-!
# Listings of a store
-/

def turnPage (s : ClaimSettings) (now : Nat) :
    Listing × MemoryStore -> Listing × MemoryStore
  | (.reading found after, store) =>
      let (page, store) := store.scan now (request s after)
      (receive s.root (.ok page) (.reading found after), store)
  | (.finished result, store) => (.finished result, store)

theorem Reads.page_eq {root : String} {all rest : List KeyValue}
    {found : Snapshot} {after : Option String}
    (h : Reads root all rest found after) {store : MemoryStore} {now : Nat}
    (hall : (store.scan now ⟨root, none, none⟩).2.listing now ⟨root, none,
      none⟩ = all)
    {s : ClaimSettings} (hroot : s.root = root) :
    (store.scan now (request s after)).1 = .ofListing
      (request s after).pageSize rest := by
  subst hroot
  rw [← h.pending, ← hall]
  exact congrArg (ScanResult.ofListing _)
    (MemoryStore.listing_eq_filter _ now (request s after))

theorem iterate_turnPage {root : String} {all : List KeyValue}
    {s : ClaimSettings} (hroot : s.root = root)
    (hsorted : all.Pairwise (fun a b => a.key < b.key)) {rest : List KeyValue}
    {found : Snapshot} {after : Option String}
    (h : Reads root all rest found after) {store : MemoryStore} {now : Nat}
    (hall : (store.scan now ⟨root, none, none⟩).2.listing now ⟨root, none,
      none⟩ = all)
    {n : Nat} (hn : rest.length < n) :
    (turnPage s now)^[n] (.reading found after, store) =
      (.finished (collect root .empty all),
        (store.scan now ⟨root, none, none⟩).2) := by
  induction n generalizing rest found after store with
  | zero => omega
  | succ n ih =>
      have hpage := h.page_eq hall hroot
      have hturn : turnPage s now (.reading found after, store) =
          (receive root (.ok (.ofListing (request s after).pageSize rest))
            (.reading found after), (store.scan now ⟨root, none, none⟩).2) := by
        rw [← hpage, ← hroot]
        rfl
      rw [Function.iterate_succ_apply, hturn]
      rcases h.receive_cases hsorted (pageSize_pos (request s after)) with
        hfinished | ⟨rest', found', token, hreading, h', hlt⟩
      · rw [hfinished]
        exact Function.iterate_fixed rfl n
      · rw [hreading, ih h' (by rw [store.scan_scan, hall]) (by omega),
          store.scan_scan]

end Listing

namespace Fleet

open MemoryStore

section

variable {ι : Type}

/-!
# What members get to see
-/

def ask (f : Fleet ι) (i : ι) (cidr : String) :
    Except ClaimError (Option String) × MemoryStore :=
  match ClaimKey.validate cidr with
  | .error e => (.error e, f.store)
  | .ok () =>
      let (found, store) :=
        f.store.read f.now
          (ClaimKey.ofCidr (f.members i).manager.settings.root cidr)
      (.ok (found.entry.map (·.value)), store)

def survey (f : Fleet ι) (i : ι) : Listing × MemoryStore :=
  let s := (f.members i).manager.settings
  (Listing.turnPage s f.now)^[(f.claims s.root).length + 1] (.start, f.store)

theorem survey_eq {f : Fleet ι} {root : String} (hroot : f.IsRooted root)
    (i : ι) :
    f.survey i =
      (.finished (f.snapshot root),
        (f.store.scan f.now ⟨root, none, none⟩).2) := by
  rw [survey, hroot i]
  exact Listing.iterate_turnPage (hroot i) (f.claims_sorted root)
    (Listing.reads_start root (f.claims root)) rfl (Nat.lt_succ_self _)

end

/-!
# Calls that nobody interrupts
-/

section

variable {ι : Type} [DecidableEq ι] {f : Fleet ι} {root : String}

def carry (f : Fleet ι) (j n : Nat) : Fleet ι :=
  (fun g : Fleet ι => g.next (.proceed j))^[n] f

theorem carry_succ (f : Fleet ι) (j n : Nat) :
    f.carry j (n + 1) = (f.next (.proceed j)).carry j n := rfl

theorem carry_add (f : Fleet ι) (j m n : Nat) :
    f.carry j (m + n) = (f.carry j n).carry j m :=
  Function.iterate_add_apply _ m n f

omit [DecidableEq ι] in
theorem setCall_setCall (f : Fleet ι) (store : MemoryStore) (j : Nat)
    (a b : Admission) :
    ((f.setCall j a).setStore store).setCall j b =
      (f.setStore store).setCall j b := by
  unfold setCall setStore
  congr 1
  apply Array.ext_getElem?
  intro k
  simp only [Array.getElem?_modify]
  split
  · cases f.calls[k]? <;> rfl
  · rfl

omit [DecidableEq ι] in
theorem claims_setStore_scan (f : Fleet ι) (root : String) :
    (f.setStore (f.store.scan f.now ⟨root, none, none⟩).2).claims root =
      f.claims root := by
  rw [claims, store_setStore, now_setStore, scan_scan]
  rfl

/-- With a page that it lists a call decides by all claims, or has fewer of them
left. -/
theorem next_listed_cases (hroot : f.IsRooted root) {j : Nat} {c : Call ι}
    (hc : f.calls[j]? = some c) {rest : List KeyValue} {found : Snapshot}
    {after : Option String}
    (hphase : c.admission.phase = .listing (.reading found after))
    (h : Listing.Reads root (f.claims root) rest found after) {s : Snapshot}
    (hs : f.snapshot root = .ok s) :
    f.next (.proceed j) =
        (f.setStore (f.store.scan f.now ⟨root, none, none⟩).2).setCall j
          { c.admission with phase := c.admission.decide s } ∨
      exists rest' found' token,
        f.next (.proceed j) =
          (f.setStore (f.store.scan f.now ⟨root, none, none⟩).2).setCall j
            { c.admission with phase := .listing (.reading found' token) } ∧
        Listing.Reads root (f.claims root) rest' found' token ∧
          rest'.length < rest.length := by
  have hsettings : (f.settings c).root = root := hroot c.member
  have hpage := h.page_eq rfl hsettings
  have hstore : (f.store.scan f.now (Listing.request (f.settings c) after)).2 =
      (f.store.scan f.now ⟨root, none, none⟩).2 := by
    rw [← hsettings]
    rfl
  rw [next_listed hc hphase, hpage, hstore]
  rcases h.receive_cases (f.claims_sorted root)
    (Listing.pageSize_pos (Listing.request (f.settings c) after)) with
    hfinished | ⟨rest', found', token, hreading, h', hlt⟩
  · rw [snapshot] at hs
    rw [hs] at hfinished
    apply Or.inl
    simp only [Admission.listed, hphase, hsettings, hfinished]
  · refine Or.inr ⟨rest', found', some token, ?_, h', hlt⟩
    simp only [Admission.listed, hphase, hsettings, hreading]

theorem carry_listed (hroot : f.IsRooted root) {j : Nat} {c : Call ι}
    (hc : f.calls[j]? = some c) {rest : List KeyValue} {found : Snapshot}
    {after : Option String}
    (hphase : c.admission.phase = .listing (.reading found after))
    (h : Listing.Reads root (f.claims root) rest found after) {s : Snapshot}
    (hs : f.snapshot root = .ok s) {n : Nat} (hn : rest.length < n) :
    exists m, m ≤ n ∧ f.carry j m =
      (f.setStore (f.store.scan f.now ⟨root, none, none⟩).2).setCall j
        { c.admission with phase := c.admission.decide s } := by
  induction n generalizing f c rest found after with
  | zero => omega
  | succ n ih =>
      rcases next_listed_cases hroot hc hphase h hs with
        hdecided | ⟨rest', found', token, hnext, h', hlt⟩
      · exact ⟨1, by omega, hdecided⟩
      · have hc' : (f.next (.proceed j)).calls[j]? =
            some ⟨c.member, { c.admission with phase := .listing (.reading found' token) }⟩ := by
          rw [hnext, calls_setCall, if_pos rfl, calls_setStore, hc]
          rfl
        have hclaims : (f.next (.proceed j)).claims root = f.claims root := by
          rw [hnext]
          exact f.claims_setStore_scan root
        rcases ih ((step_next f (.proceed j)).isRooted hroot) hc' rfl
          (by rw [hclaims]; exact h')
          (by rw [snapshot, hclaims]; exact hs) (by omega) with ⟨m, hm, hlast⟩
        refine ⟨m + 1, by omega, ?_⟩
        rw [carry_succ, hlast, hnext, store_setCall, store_setStore,
          now_setCall, now_setStore, scan_scan]
        exact setCall_setCall _ _ j _ _

end

end Fleet
end FairLease
