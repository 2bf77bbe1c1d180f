import Mathlib.Data.List.Sort
import FairLease.Proofs.Claim.Listing
import FairLease.Proofs.Store.Listing
import FairLease.Proofs.Store.Change

/-!
# The in-memory store refines a timed map

A lapsed entry that is still stored is seen by nobody: every operation first
removes those it could meet. The store and the map agree on what is there, and
agreeing they give the same answers, make the same changes, and agree again.
-/

namespace FairLease

/-!
# What is compared
-/

def KeyValue.sight (kv : KeyValue) : Sight :=
  ⟨kv.key, kv.value, kv.ttlRemainingMs⟩

def ScanResult.sights (r : ScanResult) : Sight.Page :=
  ⟨r.entries.map KeyValue.sight, r.count, r.isTruncated, r.continuation⟩

def Entry.cell (e : Entry) : Cell :=
  ⟨e.value, e.deadline⟩

def Event.change (e : Event) : Change :=
  ⟨e.action, e.key, e.value⟩

namespace MemoryStore

def answer? (s : MemoryStore) (now : Nat) : Operation -> Option Answer
  | .write c => some (.written ((s.write now c).1.map (·.prevValue)))
  | .read key => some (.found ((s.read now key).1.entry.map KeyValue.sight))
  | .delete key => some (.deleted ((s.delete now key).1.map (·.isDeleted)))
  | .scan r => some (.listed (s.scan now r).1.sights)
  | .sweep => none

def answers : MemoryStore -> List Operation.Call -> List Answer
  | _, [] => []
  | s, c :: rest =>
      (s.answer? c.time c.operation).toList ++
        (s.perform c.time c.operation).answers rest

/-- Everything ever published but that entries have expired, without
revisions. -/
def changes (s : MemoryStore) : List Change :=
  (s.events.toList.filter (fun e => decide (e.action ≠ .expire))).map
    Event.change

/-- What can be seen in the store is what is there in the map. -/
def Agrees (now : Nat) (s : MemoryStore) (m : TimedMap) : Prop :=
  forall key, (s.live? now key).map Entry.cell = m.at? now key

/-!
# Expired entries

That an entry expires changes nothing that is compared.
-/

theorem changes_of_push {s t : MemoryStore} {e : Event}
    (h : t.events = s.events.push e) :
    t.changes = s.changes ++ if e.action = .expire then [] else [e.change] := by
  rw [changes, h, Array.toList_push, List.filter_append, List.map_append]
  by_cases hexpire : e.action = .expire
  · simp [changes, hexpire]
  · simp [changes, hexpire]

theorem changes_purge (s : MemoryStore) (now : Nat) (key : String) :
    (s.purge now key).changes = s.changes := by
  rcases purge_cases s now key with ⟨hpurge, _⟩ | ⟨hpurge, _⟩
  · rw [hpurge]
  · rw [hpurge, changes_of_push (events_remove s .expire key), if_pos rfl,
      List.append_nil]

theorem changes_purgeAll (s : MemoryStore) (now : Nat)
    (select : String -> Bool) :
    (s.purgeAll now select).changes = s.changes := by
  unfold purgeAll
  induction s.lapsedKeys now select generalizing s with
  | nil => rfl
  | cons key rest ih => rw [List.foldl_cons, ih, changes_purge]

theorem isPresent_cell (now : Nat) (e : Entry) :
    e.cell.isPresent now = !e.hasLapsed now := by
  unfold Cell.isPresent Entry.hasLapsed Entry.cell
  cases e.deadline with
  | none => rfl
  | some deadline =>
      show decide (now < deadline) = !decide (deadline ≤ now)
      rw [← decide_not]
      exact decide_eq_decide.mpr Nat.not_le.symm

theorem live?_map_cell (s : MemoryStore) (now : Nat) (key : String) :
    (s.live? now key).map Entry.cell =
      ((s.get? key).map Entry.cell).filter (·.isPresent now) := by
  rw [live?]
  cases s.get? key with
  | none => rfl
  | some e =>
      cases h : e.hasLapsed now <;> simp [Option.filter, isPresent_cell, h]

section

variable {now : Nat} {s t : MemoryStore} {m : TimedMap}

theorem Agrees.value (h : Agrees now s m) (key : String) :
    (s.live? now key).map (·.value) = (m.at? now key).map (·.value) := by
  rw [← h key, Option.map_map]
  rfl

theorem Agrees.later {later : Nat} (h : Agrees now s m) (hle : now ≤ later) :
    Agrees later s m := by
  intro key
  rw [m.at?_later hle, ← h key, live?_map_cell, live?_map_cell,
    Option.filter_filter]
  congr 1
  funext c
  cases hlater : c.isPresent later with
  | false => rw [Bool.and_false]
  | true => rw [TimedMap.isPresent_of_later hle hlater, Bool.and_true]

theorem Agrees.of_live?_eq (h : Agrees now s m)
    (hlive : forall key, t.live? now key = s.live? now key) :
    Agrees now t m := by
  intro key
  rw [hlive key]
  exact h key

theorem Agrees.assign (h : Agrees now s m) (action : Action) (key : String)
    (cell : Option Cell) :
    Agrees now (s.assign action key cell) (m.assign key cell) := by
  intro k
  rw [TimedMap.at?_assign, live?_map_cell]
  cases cell with
  | none =>
      rw [MemoryStore.assign, get?_remove]
      by_cases hk : key = k
      · rw [if_pos hk, if_pos hk]
        rfl
      · rw [if_neg hk, if_neg hk, ← live?_map_cell]
        exact h k
  | some c =>
      rw [MemoryStore.assign, get?_insert]
      by_cases hk : key = k
      · rw [if_pos hk, if_pos hk]
        rfl
      · rw [if_neg hk, if_neg hk, ← live?_map_cell]
        exact h k

/-!
# Listings

Both sides list what is there in order of the keys.
-/

theorem mem_sights_iff (h : Agrees now s m) (r : ScanRequest) (x : Sight) :
    x ∈ ((s.scan now r).2.listing now r).map KeyValue.sight <->
      x ∈ m.visible now r := by
  rw [TimedMap.mem_visible_iff, List.mem_map]
  constructor
  · rintro ⟨kv, hkv, rfl⟩
    rcases mem_listing_iff.mp hkv with ⟨key, e, hget, hlead, hpending, rfl⟩
    rw [scan, get?_purgeAll, if_pos hlead] at hget
    exact ⟨key, e.cell, by rw [← h key, hget]; rfl, hlead, hpending, rfl⟩
  · rintro ⟨key, c, hat, hlead, hpending, rfl⟩
    rw [← h key] at hat
    rcases Option.map_eq_some_iff.mp hat with ⟨e, hlive, rfl⟩
    exact ⟨_, mem_listing_of_live? hlive hlead hpending, rfl⟩

theorem map_sight_listing (h : Agrees now s m) (r : ScanRequest) :
    ((s.scan now r).2.listing now r).map KeyValue.sight = m.visible now r := by
  have hasymm : Std.Asymm (fun x y : Sight => x.key < y.key) :=
    ⟨fun _ _ hxy => lt_asymm hxy⟩
  have hsorted := listing_sorted (s.scan now r).2 now r
  refine List.Pairwise.eq_of_mem_iff ?_ (m.visible_sorted now r)
    (mem_sights_iff h r)
  rw [List.pairwise_map]
  exact hsorted

theorem sights_ofListing (pageSize : Nat) (listing : List KeyValue)
    (hsize : 0 < pageSize) :
    (ScanResult.ofListing pageSize listing).sights =
      { entries := (listing.map KeyValue.sight).take pageSize
        count := min pageSize (listing.map KeyValue.sight).length
        isTruncated := decide (pageSize < (listing.map KeyValue.sight).length)
        continuation :=
          if pageSize < (listing.map KeyValue.sight).length then
            (listing.map KeyValue.sight)[pageSize - 1]?.map (·.key)
          else none } := by
  simp only [ScanResult.sights, ScanResult.ofListing, List.length_map,
    List.length_take, List.map_take]
  by_cases htruncated : pageSize < listing.length
  · have hlast : (listing.take pageSize).getLast? = listing[pageSize - 1]? := by
      rw [List.getLast?_take, if_neg (Nat.ne_of_gt hsize),
        List.getElem?_eq_getElem
          (Nat.lt_of_le_of_lt (Nat.sub_le pageSize 1) htruncated)]
      rfl
    simp only [htruncated, decide_true, if_true, hlast, List.getElem?_map,
      Option.map_map]
    rfl
  · simp [htruncated]

/-!
# Operations
-/

structure Follows (now : Nat) (s : MemoryStore) (m : TimedMap)
    (op : Operation) : Prop where
  answer : s.answer? now op = (m.perform now op).1
  agrees : Agrees now (s.perform now op) (m.perform now op).2.2
  changes : (s.perform now op).changes = s.changes ++ (m.perform now op).2.1

theorem Agrees.purge_record (h : Agrees now s m) (c : Command) :
    Agrees now ((s.record c).purge now c.key) m :=
  h.of_live?_eq fun key => by rw [live?_purge, live?_record]

theorem changes_purge_record (s : MemoryStore) (now : Nat) (c : Command)
    (key : String) :
    ((s.record c).purge now key).changes = s.changes := by
  rw [changes_purge]
  rfl

theorem changes_assign {action : Action} (haction : action ≠ .expire)
    (s : MemoryStore) (key : String) (cell : Option Cell) :
    (s.assign action key cell).changes = s.changes ++
      [⟨action, key, cell.map (·.value)⟩] := by
  rw [changes_of_push (events_assign s action key cell), if_neg haction]
  rfl

theorem Agrees.write_of_valid (h : Agrees now s m) {c : Command}
    (hvalid : c.validate = .ok ()) :
    m.write now c =
      (c.effect now ((s.live? now c.key).map (·.value))).map
        (fun p => (⟨p.1, c.key, p.2.map (·.value)⟩, m.assign c.key p.2)) := by
  rw [m.write_of_valid now hvalid, h.value]

section

variable {op : Operation}

theorem follows_of_same (h : Agrees now s m)
    (hmap : m.perform now op = (s.answer? now op, [], m))
    (hlive : forall key, (s.perform now op).live? now key = s.live? now key)
    (hchanges : (s.perform now op).changes = s.changes) :
    Follows now s m op where
  answer := by rw [hmap]
  agrees := by
    rw [hmap]
    exact h.of_live?_eq hlive
  changes := by
    rw [hmap, hchanges]
    exact (List.append_nil _).symm

theorem follows_of_record (h : Agrees now s m) {c : Command}
    (hmap : m.perform now op = (s.answer? now op, [], m))
    (hperform : s.perform now op = s.record c) : Follows now s m op :=
  follows_of_same h hmap (fun key => by rw [hperform, live?_record])
    (by rw [hperform]; rfl)

theorem follows_of_purge_record (h : Agrees now s m) {c : Command}
    (hmap : m.perform now op = (s.answer? now op, [], m))
    (hperform : s.perform now op = (s.record c).purge now c.key) :
    Follows now s m op :=
  follows_of_same h hmap
    (fun key => by rw [hperform, live?_purge, live?_record])
    (by rw [hperform, changes_purge_record])

theorem follows_of_assign (h : Agrees now s m) {c : Command} {action : Action}
    {cell : Option Cell} (haction : action ≠ .expire)
    (hmap : m.perform now op =
      (s.answer? now op, [⟨action, c.key, cell.map (·.value)⟩],
        m.assign c.key cell))
    (hperform : s.perform now op =
      ((s.record c).purge now c.key).assign action c.key cell) :
    Follows now s m op where
  answer := by rw [hmap]
  agrees := by
    rw [hmap, hperform]
    exact (h.purge_record c).assign action c.key cell
  changes := by rw [hmap, hperform, changes_assign haction,
    changes_purge_record]

end

theorem follows_write (h : Agrees now s m) (c : Command) :
    Follows now s m (.write c) := by
  rcases write_effect_cases s now c with
    ⟨e, hvalid, hwrite⟩ | ⟨hvalid, e, heffect, hwrite⟩ |
      ⟨hvalid, action, cell, heffect, w, hprev, hwrite⟩
  · refine follows_of_record h ?_ (congrArg Prod.snd hwrite)
    rw [TimedMap.perform_write_error (m.write_of_invalid now hvalid),
      answer?, hwrite]
    rfl
  · have hrefused : m.write now c = .error e := by
      rw [h.write_of_valid hvalid, heffect]
      rfl
    refine follows_of_purge_record h ?_ (congrArg Prod.snd hwrite)
    rw [TimedMap.perform_write_error hrefused, answer?, hwrite]
    rfl
  · have hwritten : m.write now c =
        .ok (⟨action, c.key, cell.map (·.value)⟩, m.assign c.key cell) := by
      rw [h.write_of_valid hvalid, heffect]
      rfl
    refine follows_of_assign h (Command.effect_cases heffect).left ?_
      (congrArg Prod.snd hwrite)
    rw [TimedMap.perform_write_ok hwritten, answer?, hwrite, ← h.value, ← hprev]
    rfl

theorem follows_delete (h : Agrees now s m) (key : String) :
    Follows now s m (.delete key) := by
  rcases delete_effect_cases s now key with
    ⟨e, hvalid, hdelete⟩ | ⟨hvalid, hfree, hdelete⟩ | ⟨hvalid, htaken, hdelete⟩
  · refine follows_of_record h ?_ (congrArg Prod.snd hdelete)
    rw [TimedMap.perform_delete_invalid m now hvalid, answer?, hdelete]
    rfl
  · have hgone : m.at? now key = none := by
      rw [← h key, hfree]
      rfl
    refine follows_of_purge_record h ?_ (congrArg Prod.snd hdelete)
    rw [TimedMap.perform_delete_free hvalid hgone, answer?, hdelete]
    rfl
  · have hthere : m.at? now key ≠ none := by
      rw [← h key]
      simpa using htaken
    have hperform : s.perform now (.delete key) =
        ((s.record (.delete key)).purge now key).assign .delete key none :=
      congrArg Prod.snd hdelete
    refine follows_of_assign h (by decide) ?_ hperform
    rw [TimedMap.perform_delete_taken hvalid hthere, answer?, hdelete]
    rfl

theorem follows_read (h : Agrees now s m) (key : String) :
    Follows now s m (.read key) := by
  refine follows_of_same h ?_ (fun k => live?_purge s now key k)
    (changes_purge s now key)
  simp only [answer?, read, TimedMap.perform, get?_purge, if_true, ← h key,
    Option.map_map]
  rfl

theorem follows_scan (h : Agrees now s m) (r : ScanRequest) :
    Follows now s m (.scan r) := by
  refine follows_of_same h ?_ (fun k => live?_purgeAll s now _ k)
    (changes_purgeAll s now _)
  simp only [answer?, TimedMap.perform, TimedMap.page, ← map_sight_listing h r]
  rw [scan, sights_ofListing _ _ (Listing.pageSize_pos r)]

theorem follows_sweep (h : Agrees now s m) : Follows now s m .sweep :=
  follows_of_same h rfl (fun k => live?_purgeAll s now _ k)
    (changes_purgeAll s now _)

theorem follows (h : Agrees now s m) (op : Operation) : Follows now s m op := by
  cases op with
  | write c => exact follows_write h c
  | read key => exact follows_read h key
  | delete key => exact follows_delete h key
  | scan r => exact follows_scan h r
  | sweep => exact follows_sweep h

end

/-!
# Runs
-/

/-- A run of a store that agrees with a map at some time before. -/
theorem play_eq {now : Nat} {s : MemoryStore} {m : TimedMap}
    (h : Agrees now s m) {run : List Operation.Call} (htimely : IsTimely run)
    (hlater : forall c, c ∈ run -> now ≤ c.time) :
    s.answers run = (m.play run).1 ∧
      (s.after run run.length).changes = s.changes ++ (m.play run).2 := by
  induction run generalizing now s m with
  | nil => exact ⟨rfl, (List.append_nil _).symm⟩
  | cons c rest ih =>
      rcases List.pairwise_cons.mp htimely with ⟨hfirst, hrest⟩
      have hc := h.later (hlater c List.mem_cons_self)
      have hfollows := follows hc c.operation
      rcases ih hfollows.agrees hrest hfirst with ⟨hanswers, hchanges⟩
      constructor
      · rw [answers, hfollows.answer, hanswers]
        rfl
      · have hafter : s.after (c :: rest) (rest.length + 1) =
            (s.perform c.time c.operation).after rest rest.length := by
          simp [after, stateAt]
        rw [List.length_cons, hafter, hchanges, hfollows.changes,
          List.append_assoc]
        rfl

theorem agrees_empty (now : Nat) : Agrees now empty .empty := by
  intro key
  rw [TimedMap.at?_empty, live?_of_get?_eq_none (get?_empty key)]
  rfl

/-- In every run of a new store at times that do not go back: (1) what is asked
for is answered as the timed map does; (2) the published events but the expired
entries are the changes of the map; (3) whoever sweeps more or less often gets
the same answers and the same events. -/
theorem refines_timedMap (run : List Operation.Call) (htimely : IsTimely run) :
    empty.answers run = (TimedMap.empty.play run).1 ∧
    (empty.after run run.length).changes = (TimedMap.empty.play run).2 ∧
    forall run', IsTimely run' ->
      run'.filter (fun c => !c.isSweep) = run.filter (fun c => !c.isSweep) ->
      empty.answers run' = empty.answers run ∧
        (empty.after run' run'.length).changes =
          (empty.after run run.length).changes := by
  have hplay {run : List Operation.Call} (htimely : IsTimely run) :=
    play_eq (agrees_empty 0) htimely fun c _ => Nat.zero_le c.time
  rcases hplay htimely with ⟨hanswers, hchanges⟩
  refine ⟨hanswers, hchanges, ?_⟩
  intro run' htimely' hsame
  rcases hplay htimely' with ⟨hanswers', hchanges'⟩
  have hplayed : TimedMap.empty.play run' = TimedMap.empty.play run := by
    rw [← TimedMap.play_filter_not_isSweep, hsame,
      TimedMap.play_filter_not_isSweep]
  constructor
  · rw [hanswers, hanswers', hplayed]
  · rw [hchanges, hchanges', hplayed]

/-- A claim is renewed, lapses at its deadline, goes to somebody else, and is
deleted. -/
def lapsing : List Operation.Call :=
  [⟨0, .write (.createWithTtl "/ips/x" "a" 10)⟩,
    ⟨0, .write (.set "/ips/y" "b")⟩, ⟨4000000,
      .write (.compareAndSwapWithTtl "/ips/x" "a" "a" 10)⟩, ⟨12000000, .sweep⟩,
    ⟨12500000, .read "/ips/x"⟩, ⟨14000000, .sweep⟩,
    ⟨14000000, .write (.compareAndSwapWithTtl "/ips/x" "a" "a" 10)⟩,
    ⟨15000000, .write (.createWithTtl "/ips/x" "c" 10)⟩,
    ⟨15000000, .scan ⟨"/ips/", some 1, none⟩⟩, ⟨20000000, .delete "/ips/x"⟩,
    ⟨30000000, .sweep⟩, ⟨30000000, .delete "/ips/x"⟩]

theorem refines_timedMap_lapsing :
    empty.answers lapsing =
      [.written (.ok none), .written (.ok none), .written (.ok (some "a")),
        .found (some ⟨"/ips/x", "a", some 1⟩),
        .written (.error (.compareFailed "/ips/x" (some "a") none)),
          .written (.ok none),
        .listed ⟨[⟨"/ips/x", "c", some 10⟩], 1, true, some "/ips/x"⟩,
          .deleted (.ok true),
        .deleted (.ok false)] ∧
    (empty.after lapsing 12).changes =
      [⟨.create, "/ips/x", some "a"⟩, ⟨.set, "/ips/y", some "b"⟩,
        ⟨.compareAndSwap, "/ips/x", some "a"⟩, ⟨.create, "/ips/x", some "c"⟩,
        ⟨.delete, "/ips/x", none⟩] ∧
    empty.answers (lapsing.filter (fun c => !c.isSweep)) =
      empty.answers lapsing := by
  have htimely : IsTimely lapsing := by decide
  have hunswept : IsTimely (lapsing.filter (fun c => !c.isSweep)) := by decide
  rcases refines_timedMap lapsing htimely with ⟨hanswers, hchanges, hsweeps⟩
  refine ⟨?_, ?_, (hsweeps _ hunswept ?_).left⟩
  · rw [hanswers]
    decide +kernel
  · exact hchanges.trans (by decide +kernel)
  · rw [List.filter_filter]
    simp

end MemoryStore
end FairLease
