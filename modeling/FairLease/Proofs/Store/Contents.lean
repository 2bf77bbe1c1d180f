import FairLease.Store.Memory

/-!
# The contents of the in-memory store

What a client can still see of a key is its entry unless that has lapsed. Each
operation is described by what it does to the entries of all keys, and the two
writes that claims are made of by the three ways in which each can go.
-/

namespace FairLease
namespace MemoryStore

/-!
# Single changes

A change concerns one key and publishes one event, and the log of commands has
no influence on the entries.
-/

def live? (s : MemoryStore) (now : Nat) (key : String) : Option Entry :=
  (s.get? key).filter (fun e => !e.hasLapsed now)

def value? (s : MemoryStore) (key : String) : Option String :=
  (s.get? key).map (·.value)

@[simp] theorem get?_record (s : MemoryStore) (c : Command) (key : String) :
    (s.record c).get? key = s.get? key := rfl

@[simp] theorem live?_record (s : MemoryStore) (c : Command) (now : Nat)
    (key : String) :
    (s.record c).live? now key = s.live? now key := rfl

theorem get?_empty (key : String) : MemoryStore.empty.get? key = none := by
  simp [MemoryStore.empty, get?]

theorem get?_insert (s : MemoryStore) (action : Action) (key value : String)
    (deadline : Option Nat) (k : String) :
    (s.insert action key value deadline).get? k =
      if key = k then
        some { value, createRevision := ((s.get? key).map (·.createRevision)).getD (s.revision + 1)
               modRevision := s.revision + 1, deadline }
      else s.get? k := by
  simp [insert, get?, Std.ExtTreeMap.getElem?_insert]

theorem events_insert (s : MemoryStore) (action : Action) (key value : String)
    (deadline : Option Nat) :
    (s.insert action key value deadline).events =
      s.events.push ⟨action, key, some value, s.revision + 1⟩ := rfl

theorem get?_remove (s : MemoryStore) (action : Action) (key k : String) :
    (s.remove action key).get? k = if key = k then none else s.get? k := by
  simp [remove, get?, Std.ExtTreeMap.getElem?_erase]

theorem events_remove (s : MemoryStore) (action : Action) (key : String) :
    (s.remove action key).events =
      s.events.push ⟨action, key, none, s.revision + 1⟩ := rfl

/-!
# Lapsed entries

Removing what has lapsed changes nothing that can be seen at that time.
-/

theorem live?_eq_some_iff {s : MemoryStore} {now : Nat} {key : String}
    {e : Entry} :
    s.live? now key = some e <-> s.get? key = some e ∧
      e.hasLapsed now = false := by
  simp [live?, Option.filter_eq_some_iff]

theorem live?_of_get?_eq_none {s : MemoryStore} {now : Nat} {key : String}
    (h : s.get? key = none) : s.live? now key = none := by
  rw [live?, h, Option.filter_none]

theorem live?_of_later {s : MemoryStore} {now later : Nat} {key : String}
    {e : Entry} (hle : now ≤ later) (h : s.live? later key = some e) :
    s.live? now key = some e := by
  rw [live?_eq_some_iff] at h ⊢
  refine ⟨h.left, ?_⟩
  have hlapsed := h.right
  unfold Entry.hasLapsed at hlapsed ⊢
  cases hdeadline : e.deadline with
  | none => rfl
  | some deadline =>
      simp only [hdeadline, decide_eq_false_iff_not] at hlapsed ⊢
      omega

theorem purge_cases (s : MemoryStore) (now : Nat) (key : String) :
    (s.purge now key = s ∧ s.live? now key = s.get? key) ∨
      (s.purge now key = s.remove .expire key ∧ s.live? now key = none) := by
  unfold purge live?
  cases hget : s.get? key with
  | none =>
      exact Or.inl ⟨rfl, rfl⟩
  | some e =>
      cases hlapsed : e.hasLapsed now with
      | true =>
          exact Or.inr ⟨by simp [hlapsed], by simp [hlapsed]⟩
      | false =>
          exact Or.inl ⟨by simp [hlapsed], by simp [hlapsed]⟩

theorem get?_purge (s : MemoryStore) (now : Nat) (key k : String) :
    (s.purge now key).get? k = if key = k then s.live? now k else s.get? k := by
  rcases purge_cases s now key with ⟨hpurge, hlive⟩ | ⟨hpurge, hlive⟩
  · rw [hpurge]
    split
    · rename_i hk
      rw [← hk, hlive]
    · rfl
  · rw [hpurge, get?_remove]
    split
    · rename_i hk
      rw [← hk, hlive]
    · rfl

@[simp] theorem live?_purge (s : MemoryStore) (now : Nat) (key k : String) :
    (s.purge now key).live? now k = s.live? now k := by
  unfold live?
  rw [get?_purge]
  split
  · simp [live?, Option.filter_filter]
  · rfl

/-!
# Removing everything that has lapsed
-/

theorem live?_foldl_purge (keys : List String) (s : MemoryStore) (now : Nat)
    (k : String) :
    (keys.foldl (fun s key => s.purge now key) s).live? now k =
      s.live? now k := by
  induction keys generalizing s with
  | nil =>
      rfl
  | cons key rest ih =>
      rw [List.foldl_cons, ih, live?_purge]

theorem get?_foldl_purge (keys : List String) (s : MemoryStore) (now : Nat)
    (k : String) :
    (keys.foldl (fun s key => s.purge now key) s).get? k =
      if k ∈ keys then s.live? now k else s.get? k := by
  induction keys generalizing s with
  | nil =>
      simp
  | cons key rest ih =>
      rw [List.foldl_cons, ih, live?_purge, get?_purge]
      by_cases hrest : k ∈ rest
      · simp [hrest]
      · by_cases hk : key = k
        · simp [hk]
        · simp [hrest, hk, Ne.symm hk]

theorem mem_lapsedKeys_iff {s : MemoryStore} {now : Nat}
    {select : String -> Bool} {k : String} :
    k ∈ s.lapsedKeys now select <->
      select k = true ∧ exists e, s.get? k = some e ∧
        e.hasLapsed now = true := by
  unfold lapsedKeys get?
  simp only [List.mem_map, List.mem_filter, Prod.exists, Bool.and_eq_true,
    Std.ExtTreeMap.mem_toList_iff_getElem?_eq_some]
  constructor
  · rintro ⟨key, e, ⟨hget, hselect, hlapsed⟩, rfl⟩
    exact ⟨hselect, e, hget, hlapsed⟩
  · rintro ⟨hselect, e, hget, hlapsed⟩
    exact ⟨k, e, ⟨hget, hselect, hlapsed⟩, rfl⟩

theorem get?_purgeAll
    (s : MemoryStore) (now : Nat) (select : String -> Bool) (k : String) :
    (s.purgeAll now select).get? k = if select k then s.live? now k
      else s.get? k := by
  unfold purgeAll
  rw [get?_foldl_purge]
  by_cases hmem : k ∈ s.lapsedKeys now select
  · simp [hmem, (mem_lapsedKeys_iff.mp hmem).left]
  · rw [if_neg hmem]
    split
    · rename_i hselect
      cases hget : s.get? k with
      | none =>
          rw [live?_of_get?_eq_none hget]
      | some e =>
          have hlapsed : e.hasLapsed now = false := by
            cases h : e.hasLapsed now with
            | true =>
                exact absurd (mem_lapsedKeys_iff.mpr ⟨hselect, e, hget, h⟩) hmem
            | false =>
                rfl
          exact (live?_eq_some_iff.mpr ⟨hget, hlapsed⟩).symm
    · rfl

@[simp] theorem live?_purgeAll
    (s : MemoryStore) (now : Nat) (select : String -> Bool) (k : String) :
    (s.purgeAll now select).live? now k = s.live? now k :=
  live?_foldl_purge _ s now k

/-!
# The two writes of a claim

A claim is created where nothing can be seen, and renewed where its own value
can be seen. Both are refused without a trace when they do not make sense, and
otherwise meet a key from which a lapsed entry has been removed.
-/

theorem current_purge (s : MemoryStore) (now : Nat) (c : Command) :
    ((s.record c).purge now c.key).get? c.key = s.live? now c.key := by
  rw [get?_purge, if_pos rfl, live?_record]

theorem ttlMs_ne_zero_of_valid {key value : String} {ttlMs : Nat}
    (h : (Command.createWithTtl key value ttlMs).validate = .ok ()) :
    ttlMs ≠ 0 := by
  rintro rfl
  simp only [Command.validate] at h
  cases hkey : Command.checkKey key with
  | error e => simp [hkey, bind, Except.bind] at h
  | ok _ =>
      cases hvalue : Command.checkValue value with
      | error e => simp [hkey, hvalue, bind, Except.bind] at h
      | ok _ => simp [hkey, hvalue, Command.checkTtl, bind, Except.bind] at h

theorem write_create_cases (s : MemoryStore) (now : Nat) (key value : String)
    (ttlMs : Nat) :
    (exists e, (Command.createWithTtl key value ttlMs).validate = .error e ∧
        s.write now (.createWithTtl key value ttlMs) =
          (.error e, s.record (.createWithTtl key value ttlMs))) ∨
      (s.live? now key ≠ none ∧
        s.write now (.createWithTtl key value ttlMs) =
          (.error (.keyExists key),
            (s.record (.createWithTtl key value ttlMs)).purge now key)) ∨
      (s.live? now key = none ∧ ttlMs ≠ 0 ∧
        exists result, s.write now (.createWithTtl key value ttlMs) =
          (.ok result,
            ((s.record (.createWithTtl key value ttlMs)).purge now key).insert
              .create key value
              (deadlineAfter now ttlMs))) := by
  cases hvalid : (Command.createWithTtl key value ttlMs).validate with
  | error e =>
      exact Or.inl ⟨e, rfl, by simp [write, hvalid]⟩
  | ok _ =>
      have hget := current_purge s now (.createWithTtl key value ttlMs)
      simp only [Command.key] at hget
      cases hlive : s.live? now key with
      | some e =>
          rw [hlive] at hget
          exact Or.inr (Or.inl ⟨by simp,
            by simp [write, hvalid, apply, Command.key, hget]⟩)
      | none =>
          rw [hlive] at hget
          have httl := ttlMs_ne_zero_of_valid hvalid
          exact Or.inr (Or.inr ⟨rfl, httl, _,
            by simp [write, hvalid, apply, Command.key, hget]; rfl⟩)

theorem write_renew_cases (s : MemoryStore) (now : Nat) (key owner : String)
    (ttlMs : Nat) :
    (exists e, (Command.compareAndSwapWithTtl key owner owner ttlMs).validate =
      .error e ∧
        s.write now (.compareAndSwapWithTtl key owner owner ttlMs) =
          (.error e, s.record (.compareAndSwapWithTtl key owner owner ttlMs))) ∨
      ((s.live? now key).map (·.value) ≠ some owner ∧
        exists e, s.write now (.compareAndSwapWithTtl key owner owner ttlMs) =
          (.error e, (s.record
            (.compareAndSwapWithTtl key owner owner ttlMs)).purge now key)) ∨
      ((s.live? now key).map (·.value) = some owner ∧
        exists result, s.write now
          (.compareAndSwapWithTtl key owner owner ttlMs) =
          (.ok result,
            ((s.record (.compareAndSwapWithTtl key owner owner ttlMs)).purge
              now key).insert
              .compareAndSwap key owner (deadlineAfter now ttlMs))) := by
  cases hvalid : (Command.compareAndSwapWithTtl key owner owner
    ttlMs).validate with
  | error e =>
      exact Or.inl ⟨e, rfl, by simp [write, hvalid]⟩
  | ok _ =>
      have hget := current_purge s now
        (.compareAndSwapWithTtl key owner owner ttlMs)
      simp only [Command.key] at hget
      by_cases hown : (s.live? now key).map (·.value) = some owner
      · exact Or.inr (Or.inr ⟨hown, _,
          by simp [write, hvalid, apply, Command.key, hget, hown]; rfl⟩)
      · exact Or.inr (Or.inl ⟨hown, _,
          by simp [write, hvalid, apply, Command.key, hget, hown]; rfl⟩)

theorem validate_createWithTtl {key value : String} {ttlMs : Nat}
    (hkey : Command.checkKey key = .ok ())
    (hvalue : value.utf8ByteSize ≤ maxValueSize) (httl : ttlMs ≠ 0) :
    (Command.createWithTtl key value ttlMs).validate = .ok () := by
  have hchecked : Command.checkValue value = .ok () := by
    rw [Command.checkValue, if_neg (Nat.not_lt.mpr hvalue)]
  have hlasting : Command.checkTtl key ttlMs = .ok () := by
    rw [Command.checkTtl, if_neg httl]
  simp only [Command.validate, hkey, hchecked, hlasting]
  rfl

/-!
# What an operation leaves

Apart from the one key that a command is about, an operation changes nothing but
that some lapsed entries are gone.
-/

/-- `t` is `s` without some of the entries that have lapsed. -/
def Purged (now : Nat) (s t : MemoryStore) : Prop :=
  forall key, t.get? key = s.get? key ∨
    (s.live? now key = none ∧ t.get? key = none)

def Replaced (s t : MemoryStore) (key : String) (entry : Option Entry) : Prop :=
  forall k, t.get? k = if key = k then entry else s.get? k

theorem Purged.live?_eq {now : Nat} {s t : MemoryStore} (h : Purged now s t)
    (key : String) :
    t.live? now key = s.live? now key := by
  rcases h key with hsame | ⟨hlive, hgone⟩
  · rw [live?, live?, hsame]
  · rw [hlive, live?_of_get?_eq_none hgone]

theorem Purged.get?_of_live? {now : Nat} {s t : MemoryStore}
    (h : Purged now s t) {key : String} {e : Entry}
    (hlive : s.live? now key = some e) : t.get? key = some e := by
  rcases h key with hsame | ⟨hnone, _⟩
  · rw [hsame]
    exact (live?_eq_some_iff.mp hlive).left
  · rw [hlive] at hnone
    cases hnone

theorem Purged.get?_of_get? {now : Nat} {s t : MemoryStore} (h : Purged now s t)
    {key : String} {e : Entry} (hget : t.get? key = some e) :
    s.get? key = some e := by
  rcases h key with hsame | ⟨_, hgone⟩
  · rw [← hsame]
    exact hget
  · rw [hget] at hgone
    cases hgone

theorem purged_of_get?_eq {now : Nat} {s t : MemoryStore}
    (h : forall key, t.get? key = s.get? key) : Purged now s t :=
  fun key => Or.inl (h key)

theorem purged_purge (s : MemoryStore) (now : Nat) (key : String) :
    Purged now s (s.purge now key) := by
  intro k
  rw [get?_purge]
  split
  · cases hlive : s.live? now k with
    | none => exact Or.inr ⟨rfl, rfl⟩
    | some e => exact Or.inl (live?_eq_some_iff.mp hlive).left.symm
  · exact Or.inl rfl

theorem purged_purgeAll (s : MemoryStore) (now : Nat)
    (select : String -> Bool) :
    Purged now s (s.purgeAll now select) := by
  intro k
  rw [get?_purgeAll]
  split
  · cases hlive : s.live? now k with
    | none => exact Or.inr ⟨rfl, rfl⟩
    | some e => exact Or.inl (live?_eq_some_iff.mp hlive).left.symm
  · exact Or.inl rfl

theorem purged_scan (s : MemoryStore) (now : Nat) (r : ScanRequest) :
    Purged now s (s.scan now r).2 :=
  purged_purgeAll s now _

theorem purged_read (s : MemoryStore) (now : Nat) (key : String) :
    Purged now s (s.read now key).2 :=
  purged_purge s now key

theorem value_read (s : MemoryStore) (now : Nat) (key : String) :
    (s.read now key).1.entry.map (·.value) = (s.read now key).2.value? key := by
  simp [read, value?, Option.map_map, Function.comp_def, Entry.toKeyValue]

theorem entry_read (s : MemoryStore) (now : Nat) (key : String) :
    (s.read now key).1.entry.map (·.value) = (s.live? now key).map
      (·.value) := by
  rw [value_read, value?, read, get?_purge, if_pos rfl]

theorem purged_expireDue (s : MemoryStore) (now : Nat) :
    Purged now s (s.expireDue now).2 :=
  purged_purgeAll s now _

theorem replaced_insert (s : MemoryStore) (now : Nat) (action : Action)
    (key value : String) (deadline : Option Nat) :
    exists e, e.value = value ∧ e.deadline = deadline ∧
      Replaced s ((s.purge now key).insert action key value deadline) key
        (some e) := by
  let revision := (s.purge now key).revision + 1
  let createRevision :=
    (((s.purge now key).get? key).map (·.createRevision)).getD revision
  refine ⟨{ value, createRevision, modRevision := revision, deadline }, rfl, rfl, ?_⟩
  intro k
  rw [get?_insert]
  by_cases hk : key = k
  · rw [if_pos hk, if_pos hk]
  · rw [if_neg hk, if_neg hk, get?_purge, if_neg hk]

theorem create_cases (s : MemoryStore) (now : Nat) (key value : String)
    (ttlMs : Nat) :
    (exists e, (s.write now (.createWithTtl key value ttlMs)).1 = .error e ∧
        Purged now s (s.write now (.createWithTtl key value ttlMs)).2) ∨
      (exists w e, (s.write now (.createWithTtl key value ttlMs)).1 = .ok w ∧
        s.live? now key = none ∧ e.value = value ∧ e.hasLapsed now = false ∧
        Replaced s (s.write now (.createWithTtl key value ttlMs)).2 key
          (some e)) := by
  rcases write_create_cases s now key value ttlMs with
    ⟨e, _, h⟩ | ⟨_, h⟩ | ⟨hlive, httl, w, h⟩
  · exact Or.inl ⟨e, by rw [h],
      by rw [h]; exact purged_of_get?_eq (fun _ => rfl)⟩
  · exact Or.inl ⟨_, by rw [h],
      by rw [h]; exact purged_purge (s.record _) now key⟩
  · rcases replaced_insert (s.record (.createWithTtl key value ttlMs))
      now .create key value
      (deadlineAfter now ttlMs) with ⟨e, hvalue, hdeadline, hreplaced⟩
    refine Or.inr ⟨w, e, by rw [h], hlive, hvalue, ?_,
      by rw [h]; exact hreplaced⟩
    simp only [Entry.hasLapsed, hdeadline, deadlineAfter,
      decide_eq_false_iff_not]
    omega

theorem create_of_free {s : MemoryStore} {now : Nat} {key value : String}
    {ttlMs : Nat}
    (hvalid : (Command.createWithTtl key value ttlMs).validate = .ok ())
    (hfree : s.live? now key = none) :
    exists w, (s.write now (.createWithTtl key value ttlMs)).1 = .ok w := by
  rcases write_create_cases s now key value ttlMs with
    ⟨e, herror, _⟩ | ⟨htaken, _⟩ | ⟨_, _, w, h⟩
  · rw [hvalid] at herror
    cases herror
  · exact absurd hfree htaken
  · exact ⟨w, by rw [h]⟩

theorem renew_cases (s : MemoryStore) (now : Nat) (key owner : String)
    (ttlMs : Nat) :
    Purged now s (s.write now
      (.compareAndSwapWithTtl key owner owner ttlMs)).2 ∨
      (exists old e, s.live? now key = some old ∧ old.value = owner ∧
        e.value = owner ∧
        Replaced s (s.write now
          (.compareAndSwapWithTtl key owner owner ttlMs)).2 key
          (some e)) := by
  rcases write_renew_cases s now key owner ttlMs with
    ⟨e, _, h⟩ | ⟨_, e, h⟩ | ⟨hown, w, h⟩
  · rw [h]
    exact Or.inl (purged_of_get?_eq (fun _ => rfl))
  · rw [h]
    exact Or.inl (purged_purge (s.record _) now key)
  · rcases replaced_insert
      (s.record (.compareAndSwapWithTtl key owner owner ttlMs)) now
      .compareAndSwap key owner (deadlineAfter now ttlMs) with
        ⟨e, hvalue, _, hreplaced⟩
    rcases Option.map_eq_some_iff.mp hown with ⟨old, hold, hvalue'⟩
    rw [h]
    exact Or.inr ⟨old, e, hold, hvalue', hvalue, hreplaced⟩

theorem delete_cases (s : MemoryStore) (now : Nat) (key : String) :
    Purged now s (s.delete now key).2 ∨
      Replaced s (s.delete now key).2 key none := by
  unfold delete
  cases (Command.delete key).validate with
  | error e => exact Or.inl (purged_of_get?_eq (fun _ => rfl))
  | ok _ =>
      by_cases hsome : (((s.record (.delete key)).purge now key).get?
        key).isSome = true
      · simp only [hsome, if_true]
        apply Or.inr
        intro k
        rw [get?_remove]
        by_cases hk : key = k
        · rw [if_pos hk, if_pos hk]
        · rw [if_neg hk, if_neg hk, get?_purge, if_neg hk, get?_record]
      · simp only [hsome]
        exact Or.inl (purged_purge (s.record _) now key)

theorem live?_delete {key : String} (h : Command.checkKey key = .ok ())
    (s : MemoryStore) (now : Nat) (k : String) :
    (s.delete now key).2.live? now k = if key = k then none
      else s.live? now k := by
  have hvalid : (Command.delete key).validate = .ok () := h
  unfold delete
  rw [hvalid]
  by_cases hsome : (((s.record (.delete key)).purge now key).get? key).isSome =
    true
  · simp only [hsome, if_true]
    rw [live?, get?_remove]
    split
    · rfl
    · rename_i hk
      rw [get?_purge, if_neg hk, get?_record, live?]
  · simp only [hsome]
    rw [if_neg Bool.false_ne_true, live?_purge, live?_record]
    split
    · rename_i hk
      rw [get?_purge, if_pos rfl, live?_record, hk,
        Option.not_isSome_iff_eq_none] at hsome
      exact hsome
    · rfl

theorem live?_delete_of_refused {key : String}
    (h : Command.checkKey key ≠ .ok ()) (s : MemoryStore) (now : Nat)
    (k : String) :
    (s.delete now key).2.live? now k = s.live? now k := by
  unfold delete
  cases hvalid : (Command.delete key).validate with
  | error e => rfl
  | ok _ => exact absurd hvalid h

end MemoryStore
end FairLease
