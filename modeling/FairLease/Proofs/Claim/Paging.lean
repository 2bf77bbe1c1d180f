import FairLease.Proofs.Claim.Listing
import FairLease.Proofs.Store.Change

/-!
# Pages and what happens between them

The claims are read page by page, and between two pages others may use the store
and time may pass. Nothing is found twice all the same, and what is there
whenever a page is read is found.
-/

namespace FairLease

/-- A listing under way: the request for the next page, until a page says that
nothing follows, and all that has been found on pages. -/
structure Paging where
  store : MemoryStore
  now : Nat
  next : Option ScanRequest
  found : List KeyValue

namespace Paging

inductive Step where
  | turn
  | perform (op : Operation)
  | publish (e : Event)
  | elapse (nanos : Nat)
  deriving DecidableEq

def start (s : ClaimSettings) (store : MemoryStore) (now : Nat) : Paging :=
  { store, now, next := some (Listing.request s none), found := [] }

def page? (p : Paging) : Step -> Option ScanResult
  | .turn => p.next.map (fun r => (p.store.scan p.now r).1)
  | _ => none

def step (s : ClaimSettings) (p : Paging) : Step -> Paging
  | .turn =>
      match p.next with
      | none => p
      | some r =>
          let (page, store) := p.store.scan p.now r
          { p with
            store
            next :=
              (Listing.following page).map (fun token =>
                Listing.request s (some token))
            found := p.found ++ page.entries }
  | .perform op => { p with store := p.store.perform p.now op }
  | .publish e => { p with store := p.store.publish e }
  | .elapse nanos => { p with now := p.now + nanos }

def after (start : Paging) (s : ClaimSettings) (steps : List Step) (n : Nat) :
    Paging :=
  stateAt (step s) start steps n

def pageAt (start : Paging) (s : ClaimSettings) (steps : List Step) (n : Nat) :
    Option ScanResult :=
  steps[n]?.bind (start.after s steps n).page?

def pages (start : Paging) (s : ClaimSettings) (steps : List Step) (n : Nat) :
    List ScanResult :=
  (List.range n).filterMap (start.pageAt s steps)

section

variable {s : ClaimSettings} {begun : Paging} {steps : List Step} {n : Nat}

/-!
# Single steps
-/

theorem step_of_page?_eq_none {p : Paging} {step : Step}
    (h : p.page? step = none) :
    (p.step s step).next = p.next ∧ (p.step s step).found = p.found := by
  cases step with
  | perform | publish | elapse => exact ⟨rfl, rfl⟩
  | turn =>
      have hnext : p.next = none := Option.map_eq_none_iff.mp h
      simp only [Paging.step, hnext, and_self]

theorem step_of_page? {p : Paging} {step : Step} {page : ScanResult}
    (h : p.page? step = some page) :
    exists r, p.next = some r ∧ (p.store.scan p.now r).1 = page ∧
      (p.step s step).next =
        (Listing.following page).map (fun token =>
          Listing.request s (some token)) ∧
      (p.step s step).found = p.found ++ page.entries := by
  cases step with
  | perform | publish | elapse => cases h
  | turn =>
      rcases Option.map_eq_some_iff.mp h with ⟨r, hnext, hpage⟩
      refine ⟨r, hnext, hpage, ?_⟩
      simp only [Paging.step, hnext, hpage, and_self]

theorem after_succ_of_pageAt_eq_none (h : begun.pageAt s steps n = none) :
    (begun.after s steps (n + 1)).next = (begun.after s steps n).next ∧
      (begun.after s steps (n + 1)).found = (begun.after s steps n).found := by
  cases hstep : steps[n]? with
  | none =>
      have hsame : begun.after s steps (n + 1) = begun.after s steps n :=
        stateAt_succ_of_none hstep
      rw [hsame]
      exact ⟨rfl, rfl⟩
  | some step =>
      have hnext : begun.after s steps (n + 1) =
          (begun.after s steps n).step s step :=
        stateAt_succ hstep
      rw [pageAt, hstep] at h
      rw [hnext]
      exact step_of_page?_eq_none h

theorem after_succ_of_pageAt {page : ScanResult}
    (h : begun.pageAt s steps n = some page) :
    exists r, (begun.after s steps n).next = some r ∧
      ((begun.after s steps n).store.scan (begun.after s steps n).now r).1 =
        page ∧
      (begun.after s steps (n + 1)).next =
        (Listing.following page).map (fun token =>
          Listing.request s (some token)) ∧
      (begun.after s steps (n + 1)).found = (begun.after s steps n).found ++
        page.entries := by
  rcases Option.bind_eq_some_iff.mp h with ⟨step, hstep, hpage⟩
  have hnext : begun.after s steps (n + 1) =
      (begun.after s steps n).step s step :=
    stateAt_succ hstep
  rw [hnext]
  exact step_of_page? hpage

/-!
# Runs
-/

theorem pages_succ (begun : Paging) (s : ClaimSettings) (steps : List Step)
    (n : Nat) :
    begun.pages s steps (n + 1) =
      begun.pages s steps n ++ (begun.pageAt s steps n).toList := by
  rw [pages, List.range_succ, List.filterMap_append]
  cases hpage : begun.pageAt s steps n <;> simp [pages, hpage]

theorem found_after (hfound : begun.found = []) :
    (begun.after s steps n).found = (begun.pages s steps n).flatMap
      (·.entries) := by
  induction n with
  | zero => exact hfound
  | succ n ih =>
      rw [pages_succ, List.flatMap_append, ← ih]
      cases hpage : begun.pageAt s steps n with
      | none =>
          rw [(after_succ_of_pageAt_eq_none hpage).right]
          simp
      | some page =>
          rcases after_succ_of_pageAt hpage with ⟨r, _, _, _, hgrown⟩
          rw [hgrown]
          simp

/-- What was found was on a page that was read at some moment before. -/
theorem pageAt_of_mem_found (hfound : begun.found = []) {kv : KeyValue}
    (h : kv ∈ (begun.after s steps n).found) :
    exists i page, i < n ∧ begun.pageAt s steps i = some page ∧
      kv ∈ page.entries := by
  rw [found_after hfound, List.mem_flatMap] at h
  rcases h with ⟨page, hpage, hkv⟩
  rcases List.mem_filterMap.mp hpage with ⟨i, hi, hread⟩
  exact ⟨i, page, List.mem_range.mp hi, hread, hkv⟩

end

/-!
# What is found

What has been found lies before everything that is still to come, and nothing
that was there at every page is missing from it.
-/

section

variable {s : ClaimSettings} {store : MemoryStore} {now : Nat}
  {steps : List Step} {n : Nat}

/-- The found keys are in order, and none of them is still to come. -/
structure InOrder (p : Paging) : Prop where
  sorted : (p.found.map (·.key)).Pairwise (fun a b => a < b)
  passed : forall r, p.next = some r -> forall kv, kv ∈ p.found ->
    r.isPending kv.key = false

theorem inOrder_after (s : ClaimSettings) (store : MemoryStore) (now : Nat)
    (steps : List Step) (n : Nat) :
    InOrder ((start s store now).after s steps n) := by
  induction n with
  | zero =>
      refine ⟨List.Pairwise.nil, ?_⟩
      intro _ _ kv hkv
      cases hkv
  | succ n ih =>
      cases hpage : (start s store now).pageAt s steps n with
      | none =>
          rcases after_succ_of_pageAt_eq_none hpage with ⟨hnext, hfound⟩
          refine ⟨?_, ?_⟩
          · rw [hfound]
            exact ih.sorted
          · rw [hnext, hfound]
            exact ih.passed
      | some page =>
          rcases after_succ_of_pageAt hpage with ⟨r, hr, hscan, hnext, hfound⟩
          rw [← hscan] at hnext hfound
          refine ⟨?_, ?_⟩
          · rw [hfound, List.map_append, List.pairwise_append]
            refine ⟨ih.sorted,
              List.pairwise_map.mpr (Listing.page_sorted _ _ _), ?_⟩
            intro a ha b hb
            rcases List.mem_map.mp ha with ⟨old, hold, rfl⟩
            rcases List.mem_map.mp hb with ⟨new, hnew, rfl⟩
            exact Listing.lt_of_isPending (ih.passed r hr old hold)
              (Listing.mem_page hnew).right.left
          · intro r' hr' kv hkv
            rw [hnext] at hr'
            rcases Option.map_eq_some_iff.mp hr' with ⟨token, htoken, rfl⟩
            simp only [Listing.request, ScanRequest.isPending,
              decide_eq_false_iff_not]
            rw [hfound] at hkv
            rcases List.mem_append.mp hkv with hold | hnew
            · exact Listing.accounted_before htoken (ih.passed r hr kv hold)
            · exact Listing.page_before htoken hnew

def LastsThrough (start : Paging) (s : ClaimSettings) (steps : List Step)
    (key : String) (n : Nat) : Prop :=
  forall i, i < n -> start.pageAt s steps i ≠ none ->
    (start.after s steps i).store.live? (start.after s steps i).now key ≠ none

theorem lead_of_next {r : ScanRequest}
    (h : ((start s store now).after s steps n).next = some r) :
    r.lead = s.root := by
  induction n with
  | zero =>
      cases h
      rfl
  | succ n ih =>
      cases hpage : (start s store now).pageAt s steps n with
      | none =>
          rw [(after_succ_of_pageAt_eq_none hpage).left] at h
          exact ih h
      | some page =>
          rcases after_succ_of_pageAt hpage with ⟨_, _, _, hnext, _⟩
          rw [hnext] at h
          rcases Option.map_eq_some_iff.mp h with ⟨token, _, rfl⟩
          rfl

theorem mem_found_of_lasting {key : String}
    (hlead : Text.startsWith key s.root = true)
    (hlasts : LastsThrough (start s store now) s steps key n)
    (hpassed : forall r, ((start s store now).after s steps n).next = some r ->
      r.isPending key = false) :
    exists kv, kv ∈ ((start s store now).after s steps n).found ∧
      kv.key = key := by
  induction n with
  | zero =>
      cases hpassed _ rfl
  | succ n ih =>
      have hbefore : LastsThrough (start s store now) s steps key n :=
        fun i hi => hlasts i (Nat.lt_succ_of_lt hi)
      cases hpage : (start s store now).pageAt s steps n with
      | none =>
          rcases after_succ_of_pageAt_eq_none hpage with ⟨hnext, hfound⟩
          rw [hnext] at hpassed
          rw [hfound]
          exact ih hbefore hpassed
      | some page =>
          rcases after_succ_of_pageAt hpage with ⟨r, hr, hscan, hnext, hfound⟩
          rw [← hscan] at hnext hfound
          rw [hfound]
          cases hpending : r.isPending key with
          | false =>
              have hold := ih hbefore fun r' hr' => by
                rw [hr] at hr'
                cases hr'
                exact hpending
              rcases hold with ⟨kv, hkv, hkey⟩
              exact ⟨kv, List.mem_append_left _ hkv, hkey⟩
          | true =>
              have hthere := hlasts n (Nat.lt_succ_self n) (by rw [hpage]; simp)
              rcases Option.ne_none_iff_exists'.mp hthere with ⟨e, hlive⟩
              rw [← lead_of_next hr] at hlead
              have hcovered :=
                Listing.page_covers hlive hlead hpending fun token htoken => by
                have hlater :=
                  hpassed (Listing.request s (some token))
                    (by rw [hnext, htoken]; rfl)
                simpa [Listing.request, ScanRequest.isPending] using hlater
              rcases hcovered with ⟨kv, hkv, hkey, _⟩
              exact ⟨kv, List.mem_append_right _ hkv, hkey⟩

/-- What is found was live, as it was found, when its page was read. -/
theorem live?_of_mem_found {kv : KeyValue}
    (h : kv ∈ ((start s store now).after s steps n).found) :
    exists i page e, i < n ∧ (start s store now).pageAt s steps i = some page ∧
      kv ∈ page.entries ∧
      Text.startsWith kv.key s.root = true ∧
      ((start s store now).after s steps i).store.live?
        ((start s store now).after s steps i).now kv.key = some e ∧
      e.toKeyValue kv.key ((start s store now).after s steps i).now = kv := by
  rcases pageAt_of_mem_found rfl h with ⟨i, page, hi, hpage, hkv⟩
  rcases after_succ_of_pageAt hpage with ⟨r, hr, hscan, _, _⟩
  have hseen := hkv
  rw [← hscan] at hseen
  rcases MemoryStore.shown_of_mem_listing (List.mem_of_mem_take hseen) with
    ⟨hlead, _, e, hlive, hshown⟩
  rw [lead_of_next hr] at hlead
  exact ⟨i, page, e, hi, hpage, hkv, hlead, hlive, hshown⟩

/-!
# Listings that nobody disturbs

As long as a client sees the same, every page shows the next keys, as many as
fit on it.
-/

def turns (steps : List Step) (n : Nat) : Nat :=
  (steps.take n).count .turn

def capacity (s : ClaimSettings) : Nat :=
  max 1 (min s.pageSize maxScanResults)

theorem pageSize_request (s : ClaimSettings) (after : Option String) :
    (Listing.request s after).pageSize = capacity s := rfl

/-- The pages that it takes to list so many entries, of which there is always
one. -/
def pagesFor (capacity size : Nat) : Nat :=
  max 1 ((size + capacity - 1) / capacity)

theorem pagesFor_le_iff {capacity size t : Nat} (hpos : 0 < capacity) :
    pagesFor capacity size ≤ t <-> 1 ≤ t ∧ size ≤ t * capacity := by
  unfold pagesFor
  rw [Nat.max_le, Nat.div_le_iff_le_mul_add_pred hpos, Nat.mul_comm capacity t]
  omega

theorem turns_succ (steps : List Step) (n : Nat) :
    turns steps (n + 1) = turns steps n + if steps[n]? = some .turn then 1
      else 0 := by
  unfold turns
  rw [List.take_add_one, List.count_append]
  congr 1
  cases steps[n]? with
  | none => simp
  | some step => by_cases h : step = .turn <;> simp [h]

theorem step_of_pageAt {page : ScanResult}
    (h : (start s store now).pageAt s steps n = some page) :
    steps[n]? = some .turn := by
  rcases Option.bind_eq_some_iff.mp h with ⟨step, hstep, hpage⟩
  cases step with
  | turn => exact hstep
  | perform | publish | elapse => cases hpage

theorem next_of_turn (hstep : steps[n]? = some .turn)
    (h : (start s store now).pageAt s steps n = none) :
    ((start s store now).after s steps n).next = none := by
  rw [pageAt, hstep] at h
  exact Option.map_eq_none_iff.mp h

/-- Of what a client sees, `k` pages have been found, and what is left is still
to come. -/
structure ShowsPages (s : ClaimSettings) (seen : List (String × String))
    (k : Nat) (p : Paging) : Prop where
  found : p.found.map (fun kv => (kv.key, kv.value)) =
    seen.take (k * capacity s)
  finished : p.next = none -> 1 ≤ k ∧ seen.length ≤ k * capacity s
  waiting : forall r, p.next = some r ->
    (k = 0 ∨ k * capacity s < seen.length) ∧ r.lead = s.root ∧
    r.pageSize = capacity s ∧
      seen.filter (fun p => r.isPending p.1) = seen.drop (k * capacity s)

theorem showsPages_start (seen : List (String × String)) :
    ShowsPages s seen 0 (start s store now) where
  found := by
    rw [Nat.zero_mul, List.take_zero]
    rfl
  finished := by
    intro hnext
    cases hnext
  waiting := by
    intro r hr
    cases hr
    rw [Nat.zero_mul, List.drop_zero]
    exact ⟨Or.inl rfl, rfl, pageSize_request s none,
      List.filter_eq_self.mpr fun _ _ => rfl⟩

theorem capacity_pos (s : ClaimSettings) : 0 < capacity s :=
  Listing.pageSize_pos (Listing.request s none)

theorem ShowsPages.turn {seen : List (String × String)} {k : Nat} {p q : Paging}
    {r : ScanRequest}
    (h : ShowsPages s seen k p) (hr : p.next = some r)
    (hseen : p.store.visible p.now s.root = seen)
    (hnext : q.next = (Listing.following (p.store.scan p.now r).1).map
      (fun token => Listing.request s (some token)))
    (hfound : q.found = p.found ++ (p.store.scan p.now r).1.entries) :
    ShowsPages s seen (k + 1) q := by
  rcases h.waiting r hr with ⟨_, hlead, hsize, hleft⟩
  have hlisting := p.store.map_listing_scan p.now r
  rw [hlead, hseen, hleft] at hlisting
  have hpage : (p.store.scan p.now r).1 =
      .ofListing (capacity s) ((p.store.scan p.now r).2.listing p.now r) := by
    rw [← hsize]
    rfl
  rw [hpage] at hnext hfound
  generalize (p.store.scan p.now r).2.listing p.now r =
    listing at hlisting hnext hfound
  have hlength := congrArg List.length hlisting
  rw [List.length_map, List.length_drop] at hlength
  have hshown : q.found.map (fun kv => (kv.key, kv.value)) =
      seen.take ((k + 1) * capacity s) := by
    rw [hfound, List.map_append, h.found, Nat.add_mul, Nat.one_mul,
      List.take_add, ← hlisting, ← List.map_take]
    rfl
  refine ⟨hshown, ?_, ?_⟩
  · intro hnone
    rw [hnext, Option.map_eq_none_iff] at hnone
    have hwhole := Listing.length_le_of_following (capacity_pos s) hnone
    rw [Nat.add_mul, Nat.one_mul]
    omega
  · intro r' hr'
    rw [hnext] at hr'
    rcases Option.map_eq_some_iff.mp hr' with ⟨token, htoken, rfl⟩
    have hlong := Listing.lt_of_following htoken
    rcases Listing.following_eq_some htoken with ⟨front, last, hfront, hlast⟩
    refine ⟨Or.inr ?_, rfl, pageSize_request s (some token), ?_⟩
    · rw [Nat.add_mul, Nat.one_mul]
      omega
    · have hsplit : seen = p.found.map (fun kv => (kv.key, kv.value)) ++
          front.map (fun kv => (kv.key, kv.value)) ++
            [(last.key, last.value)] ++
            seen.drop ((k + 1) * capacity s) := by
        have hentries : q.found.map (fun kv => (kv.key, kv.value)) =
            p.found.map (fun kv => (kv.key, kv.value)) ++
              front.map (fun kv => (kv.key, kv.value)) ++
                [(last.key, last.value)] := by
          rw [hfound, List.map_append, List.append_assoc]
          show _ ++ (listing.take (capacity s)).map _ = _
          rw [hfront, List.map_append]
          rfl
        rw [← hentries, hshown, List.take_append_drop]
      have hsorted := p.store.visible_sorted p.now s.root
      rw [hseen, hsplit] at hsorted
      have hrest := Listing.filter_after_last Prod.fst hsorted
      rw [← hsplit] at hrest
      rw [← hlast]
      exact hrest

def IsQuiet (start : Paging) (s : ClaimSettings) (steps : List Step) (n : Nat) :
    Prop :=
  forall i, i < n ->
    (start.after s steps i).store.visible (start.after s steps i).now s.root =
    start.store.visible start.now s.root

theorem showsPages_after (hquiet : IsQuiet (start s store now) s steps n) :
    ShowsPages s (store.visible now s.root)
      ((start s store now).pages s steps n).length
      ((start s store now).after s steps n) := by
  induction n with
  | zero => exact showsPages_start _
  | succ n ih =>
      have hbefore := ih fun i hi => hquiet i (Nat.lt_succ_of_lt hi)
      rw [pages_succ, List.length_append]
      cases hpage : (start s store now).pageAt s steps n with
      | none =>
          rcases after_succ_of_pageAt_eq_none hpage with ⟨hnext, hfound⟩
          refine ⟨?_, ?_, ?_⟩
          · rw [hfound]
            exact hbefore.found
          · rw [hnext]
            exact hbefore.finished
          · rw [hnext]
            exact hbefore.waiting
      | some page =>
          rcases after_succ_of_pageAt hpage with ⟨r, hr, rfl, hnext, hfound⟩
          exact hbefore.turn hr (hquiet n (Nat.lt_succ_self n)) hnext hfound

/-- Every page that is asked for is read, until everything has been listed. -/
theorem length_pages (hquiet : IsQuiet (start s store now) s steps n) :
    ((start s store now).pages s steps n).length =
      min (turns steps n)
        (pagesFor (capacity s) (store.visible now s.root).length) := by
  induction n with
  | zero => simp [pages, turns]
  | succ n ih =>
      have hquiet' : IsQuiet (start s store now) s steps n :=
        fun i hi => hquiet i (Nat.lt_succ_of_lt hi)
      have hbefore := ih hquiet'
      have hshows := showsPages_after hquiet'
      rw [pages_succ, List.length_append, turns_succ]
      cases hpage : (start s store now).pageAt s steps n with
      | none =>
          by_cases hturn : steps[n]? = some .turn
          · have hfinished := hshows.finished (next_of_turn hturn hpage)
            rw [← pagesFor_le_iff (capacity_pos s)] at hfinished
            simp only [hturn, if_true, Option.toList_none, List.length_nil]
            omega
          · simp only [hturn, if_false, Option.toList_none, List.length_nil]
            omega
      | some page =>
          rcases after_succ_of_pageAt hpage with ⟨r, hr, _⟩
          have hwaiting := (hshows.waiting r hr).left
          have hmore : ¬ pagesFor (capacity s)
              (store.visible now s.root).length ≤
              ((start s store now).pages s steps n).length := by
            rw [pagesFor_le_iff (capacity_pos s)]
            omega
          simp only [step_of_pageAt hpage, if_true, Option.toList_some,
            List.length_singleton]
          omega

/-!
# Listings of claims
-/

theorem foldl_receive_pages (s : ClaimSettings) (store : MemoryStore)
    (now : Nat) (steps : List Step) (n : Nat) :
    ((start s store now).pages s steps n).foldl
      (fun l page => l.receive s.root (.ok page))
        Listing.start =
      match Listing.collect s.root .empty
        ((start s store now).after s steps n).found,
          ((start s store now).after s steps n).next with
      | .error e, _ => .finished (.error e)
      | .ok claims, none => .finished (.ok claims)
      | .ok claims, some r => .reading claims r.after := by
  induction n with
  | zero => rfl
  | succ n ih =>
      rw [pages_succ, List.foldl_append, ih]
      cases hpage : (start s store now).pageAt s steps n with
      | none =>
          rcases after_succ_of_pageAt_eq_none hpage with ⟨hnext, hfound⟩
          rw [hnext, hfound]
          rfl
      | some page =>
          rcases after_succ_of_pageAt hpage with ⟨r, hr, _, hnext, hfound⟩
          rw [hnext, hfound, hr, Listing.collect_append]
          cases hcollect : Listing.collect s.root .empty
            ((start s store now).after s steps n).found with
          | error e => rfl
          | ok claims =>
              simp only [Option.toList_some, List.foldl_cons, List.foldl_nil,
                Listing.receive]
              cases Listing.collect s.root claims page.entries with
              | error e => rfl
              | ok more => cases Listing.following page <;> rfl

/-- Whatever others do between the pages: (1) the keys that are found are in
order, so that none is found twice; (2) whatever is found was on a page that was
read at some moment, and was live then as it was found; (3) once a page says
that nothing follows, every key that was live whenever a page was read has been
found; (4) if nobody changes what a client sees, the listing ends with the page
that fills up the number of pages that this takes, and has found everything. (5)
The manager that takes up these pages has a snapshot of what was found. -/
theorem pages_add_up (s : ClaimSettings) (store : MemoryStore) (now : Nat)
    (steps : List Step) (n : Nat) :
    (((start s store now).after s steps n).found.map (·.key)).Pairwise
      (fun a b => a < b) ∧
    (forall kv, kv ∈ ((start s store now).after s steps n).found ->
      exists i page e, i < n ∧
        (start s store now).pageAt s steps i = some page ∧
        kv ∈ page.entries ∧
        Text.startsWith kv.key s.root = true ∧
        ((start s store now).after s steps i).store.live?
          ((start s store now).after s steps i).now kv.key = some e ∧
        e.toKeyValue kv.key ((start s store now).after s steps i).now = kv) ∧
    (((start s store now).after s steps n).next = none ->
      forall key, Text.startsWith key s.root = true ->
        LastsThrough (start s store now) s steps key n ->
        exists kv, kv ∈ ((start s store now).after s steps n).found ∧
          kv.key = key) ∧
    (IsQuiet (start s store now) s steps n ->
      ((start s store now).pages s steps n).length =
          min (turns steps n)
            (pagesFor (capacity s) (store.visible now s.root).length) ∧
      (((start s store now).after s steps n).next = none <->
        pagesFor (capacity s) (store.visible now s.root).length ≤
          turns steps n) ∧
      (((start s store now).after s steps n).next = none ->
        ((start s store now).after s steps n).found.map
          (fun kv => (kv.key, kv.value)) =
          store.visible now s.root)) ∧
    ((start s store now).pages s steps n).foldl
      (fun l page => l.receive s.root (.ok page))
        Listing.start =
      match Listing.collect s.root .empty
        ((start s store now).after s steps n).found,
          ((start s store now).after s steps n).next with
      | .error e, _ => .finished (.error e)
      | .ok claims, none => .finished (.ok claims)
      | .ok claims, some r => .reading claims r.after := by
  refine ⟨(inOrder_after s store now steps n).sorted,
    fun kv => live?_of_mem_found, ?_, ?_,
      foldl_receive_pages s store now steps n⟩
  · intro hnext key hlead hlasts
    apply mem_found_of_lasting hlead hlasts
    intro r hr
    rw [hnext] at hr
    cases hr
  · intro hquiet
    have hshows := showsPages_after hquiet
    have hlength := length_pages hquiet
    have hfinished : ((start s store now).after s steps n).next = none ->
        1 ≤ ((start s store now).pages s steps n).length ∧
          (store.visible now s.root).length ≤
            ((start s store now).pages s steps n).length * capacity s :=
              hshows.finished
    refine ⟨hlength, ?_, ?_⟩
    · rw [← pagesFor_le_iff (capacity_pos s)] at hfinished
      constructor
      · intro hnext
        have hread := hfinished hnext
        omega
      · intro hturns
        rw [Option.eq_none_iff_forall_ne_some]
        intro r hr
        have hread : pagesFor (capacity s) (store.visible now s.root).length ≤
            ((start s store now).pages s steps n).length := by
          omega
        rw [pagesFor_le_iff (capacity_pos s)] at hread
        have hwaiting := (hshows.waiting r hr).left
        omega
    · intro hnext
      rw [hshows.found, List.take_of_length_le (hfinished hnext).right]

end

def listed : MemoryStore :=
  ["/ips/a", "/ips/b", "/ips/c", "/ips/d", "/ips/e"].foldl
    (fun s key => (s.write 0
      (.createWithTtl key "x" (if key = "/ips/d" then 10 else 1000))).2)
    .empty

def listers : ClaimSettings :=
  { ClaimSettings.default with root := "/ips/", pageSize := 2 }

/-- The key from which the next page goes on is deleted, a key appears before it
and one after it, a value changes, and a claim lapses. -/
def shifting : List Step :=
  [.turn, .perform (.delete "/ips/b"), .perform (.write (.set "/ips/aa" "y")),
    .perform (.write (.set "/ips/cc" "y")),
    .perform (.write (.set "/ips/e" "z")), .elapse 10000000, .perform .sweep,
    .turn, .publish ⟨.delete, "/ips/e", none, 1⟩, .turn]

theorem pages_add_up_shifting :
    ((start listers listed 0).after listers shifting 10).found.map
      (fun kv => (kv.key, kv.value)) =
      [("/ips/a", "x"), ("/ips/b", "x"), ("/ips/c", "x"), ("/ips/cc", "y"),
        ("/ips/e", "z")] ∧
    (exists kv, kv ∈ ((start listers listed 0).after listers
      shifting 10).found ∧
      kv.key = "/ips/e") ∧
    ((start listers listed 0).after listers (List.replicate 4 .turn) 2).next ≠
      none ∧
    ((start listers listed 0).after listers (List.replicate 4 .turn)
      4).found.map
      (fun kv => (kv.key, kv.value)) = listed.visible 0 "/ips/" := by
  rcases pages_add_up listers listed 0 shifting 10 with ⟨_, _, hcomplete, _, _⟩
  rcases pages_add_up listers listed 0 (List.replicate 4 .turn) 2 with
    ⟨_, _, _, hshort, _⟩
  rcases pages_add_up listers listed 0 (List.replicate 4 .turn) 4 with
    ⟨_, _, _, hwhole, _⟩
  have hlasts : LastsThrough (start listers listed 0)
      listers shifting "/ips/e" 10 := by
    unfold LastsThrough
    decide +kernel
  have hquiet : IsQuiet (start listers listed 0) listers
      (List.replicate 4 .turn) 4 := by
    unfold IsQuiet
    decide +kernel
  refine ⟨by decide +kernel,
    hcomplete (by decide +kernel) "/ips/e" (by decide +kernel) hlasts, ?_, ?_⟩
  · intro hnext
    have hpages := (hshort fun i hi => hquiet i (by omega)).right.left.mp hnext
    exact absurd hpages (by decide +kernel)
  · rcases hwhole hquiet with ⟨_, hends, hfound⟩
    exact hfound (hends.mpr (by decide +kernel))

end Paging
end FairLease
