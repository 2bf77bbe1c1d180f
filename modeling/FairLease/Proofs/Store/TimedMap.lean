import Mathlib.Control.Monad.Basic
import FairLease.Store.Memory

/-!
# Timed maps

A timed map gives keys values that are there until a deadline. It never takes a
value away because its time has passed, but only looks at the clock when it is
asked. It is what a store with lifetimes means to its clients, who see neither
revisions nor the moment at which a lapsed entry is removed.
-/

namespace FairLease

/-!
# Operations and answers

An operation of a client, or a sweep, happens at a given time. Answers leave the
revisions out, and a sweep has no answer.
-/

inductive Operation where
  | write (c : Command)
  | read (key : String)
  | delete (key : String)
  | scan (r : ScanRequest)
  | sweep
  deriving DecidableEq, Repr

structure Operation.Call where
  time : Nat
  operation : Operation
  deriving DecidableEq, Repr

def Operation.Call.isSweep (c : Operation.Call) : Bool :=
  decide (c.operation = .sweep)

def IsTimely (run : List Operation.Call) : Prop :=
  run.Pairwise (fun c d => c.time ≤ d.time)

instance (run : List Operation.Call) : Decidable (IsTimely run) :=
  inferInstanceAs (Decidable (run.Pairwise _))

structure Sight where
  key : String
  value : String
  ttlRemainingMs : Option Nat
  deriving DecidableEq, Repr

structure Sight.Page where
  entries : List Sight
  count : Nat
  isTruncated : Bool
  continuation : Option String
  deriving DecidableEq, Repr

inductive Answer where
  | written (result : Except StoreError (Option String))
  | found (entry : Option Sight)
  | deleted (result : Except StoreError Bool)
  | listed (page : Sight.Page)
  deriving DecidableEq, Repr

structure Change where
  action : Action
  key : String
  value : Option String
  deriving DecidableEq, Repr

/-!
# Values with deadlines
-/

structure Cell where
  value : String
  deadline : Option Nat
  deriving DecidableEq, Repr

namespace Cell

def isPresent (now : Nat) (c : Cell) : Bool :=
  match c.deadline with
  | none => true
  | some deadline => decide (now < deadline)

def sight (c : Cell) (key : String) (now : Nat) : Sight :=
  { key, value := c.value
    ttlRemainingMs :=
      c.deadline.map (fun deadline => (deadline - now) / 1000000) }

def lasting (now : Nat) (value : String) (ttlMs : Nat) : Cell :=
  ⟨value, some (now + ttlMs * 1000000)⟩

end Cell

/-- What a valid command does to its key, given the value that is there: the
action and what is there afterwards. -/
def Command.effect (now : Nat) (current : Option String) :
    Command -> Except StoreError (Action × Option Cell)
  | .set _ value => .ok (.set, some ⟨value, none⟩)
  | .setWithTtl _ value ttlMs => .ok (.set, some (.lasting now value ttlMs))
  | .createWithTtl key value ttlMs =>
      match current with
      | none => .ok (.create, some (.lasting now value ttlMs))
      | some _ => .error (.keyExists key)
  | .compareAndSwap key expected newValue =>
      if current ≠ expected then .error (.compareFailed key expected current)
      else if expected = none then .ok (.create, some ⟨newValue, none⟩)
      else .ok (.compareAndSwap, some ⟨newValue, none⟩)
  | .compareAndSwapWithTtl key expected newValue ttlMs =>
      if current = some expected then
        .ok (.compareAndSwap, some (.lasting now newValue ttlMs))
      else .error (.compareFailed key (some expected) current)
  | .delete key =>
      match current with
      | none => .error (.notFound key)
      | some _ => .ok (.delete, none)

/-!
# Maps
-/

structure TimedMap where
  cells : Table Cell

namespace TimedMap

def empty : TimedMap :=
  ⟨∅⟩

def at? (m : TimedMap) (now : Nat) (key : String) : Option Cell :=
  m.cells[key]?.filter (·.isPresent now)

def assign (m : TimedMap) (key : String) : Option Cell -> TimedMap
  | some c => ⟨m.cells.insert key c⟩
  | none => ⟨m.cells.erase key⟩

def visible (m : TimedMap) (now : Nat) (r : ScanRequest) : List Sight :=
  (m.cells.toList.filter (fun p =>
    p.2.isPresent now && Text.startsWith p.1 r.lead && r.isPending p.1)).map
      (fun p => p.2.sight p.1 now)

/-- The front of what a request asks for. The next page continues after its last
key. -/
def page (m : TimedMap) (now : Nat) (r : ScanRequest) : Sight.Page :=
  let found := m.visible now r
  { entries := found.take r.pageSize
    count := min r.pageSize found.length
    isTruncated := decide (r.pageSize < found.length)
    continuation :=
      if r.pageSize < found.length then
        found[r.pageSize - 1]?.map (·.key) else none }

def write (m : TimedMap) (now : Nat) (c : Command) :
    Except StoreError (Change × TimedMap) := do
  c.validate
  let (action, cell) ← c.effect now ((m.at? now c.key).map (·.value))
  return (⟨action, c.key, cell.map (·.value)⟩, m.assign c.key cell)

/-- The answer to an operation, the changes it makes, and the map after it. -/
def perform (m : TimedMap) (now : Nat) :
    Operation -> Option Answer × List Change × TimedMap
  | .write c =>
      match m.write now c with
      | .ok (change, t) =>
          (some (.written (.ok ((m.at? now c.key).map (·.value)))), [change], t)
      | .error e => (some (.written (.error e)), [], m)
  | .read key => (some (.found ((m.at? now key).map (·.sight key now))), [], m)
  | .delete key =>
      match (Command.delete key).validate, m.at? now key with
      | .error e, _ => (some (.deleted (.error e)), [], m)
      | .ok (), none => (some (.deleted (.ok false)), [], m)
      | .ok (), some _ => (some (.deleted (.ok true)), [⟨.delete, key, none⟩], m.assign key none)
  | .scan r => (some (.listed (m.page now r)), [], m)
  | .sweep => (none, [], m)

def play : TimedMap -> List Operation.Call -> List Answer × List Change
  | _, [] => ([], [])
  | m, c :: rest =>
      let (answer, changes, t) := m.perform c.time c.operation
      let (answers, later) := t.play rest
      (answer.toList ++ answers, changes ++ later)

/-!
# Laws
-/

theorem at?_empty (now : Nat) (key : String) : empty.at? now key = none := by
  simp [empty, at?]

theorem getElem?_assign (m : TimedMap) (key k : String) (cell : Option Cell) :
    (m.assign key cell).cells[k]? = if key = k then cell else m.cells[k]? := by
  cases cell with
  | none => simp [assign, Std.ExtTreeMap.getElem?_erase]
  | some c => simp [assign, Std.ExtTreeMap.getElem?_insert]

theorem at?_assign (m : TimedMap) (now : Nat) (key k : String)
    (cell : Option Cell) :
    (m.assign key cell).at? now k =
      if key = k then cell.filter (·.isPresent now) else m.at? now k := by
  rw [at?, getElem?_assign]
  split
  · rfl
  · rfl

theorem isPresent_of_later {c : Cell} {now later : Nat} (hle : now ≤ later)
    (h : c.isPresent later = true) : c.isPresent now = true := by
  unfold Cell.isPresent at h ⊢
  cases hdeadline : c.deadline with
  | none => rfl
  | some deadline =>
      rw [hdeadline] at h
      exact decide_eq_true (Nat.lt_of_le_of_lt hle (of_decide_eq_true h))

theorem at?_later (m : TimedMap) {now later : Nat} (hle : now ≤ later)
    (key : String) :
    m.at? later key = (m.at? now key).filter (·.isPresent later) := by
  unfold at?
  rw [Option.filter_filter]
  congr 1
  funext c
  cases hlater : c.isPresent later with
  | false => exact (Bool.and_false _).symm
  | true => rw [isPresent_of_later hle hlater, Bool.and_true]

theorem mem_visible_iff {m : TimedMap} {now : Nat} {r : ScanRequest}
    {x : Sight} :
    x ∈ m.visible now r <->
      exists key c, m.at? now key = some c ∧ Text.startsWith key r.lead = true ∧
        r.isPending key = true ∧ c.sight key now = x := by
  unfold visible at?
  simp only [List.mem_map, List.mem_filter, Prod.exists, Bool.and_eq_true,
    Std.ExtTreeMap.mem_toList_iff_getElem?_eq_some, Option.filter_eq_some_iff]
  constructor
  · rintro ⟨key, c, ⟨hget, ⟨hpresent, hlead⟩, hpending⟩, hx⟩
    exact ⟨key, c, ⟨hget, hpresent⟩, hlead, hpending, hx⟩
  · rintro ⟨key, c, ⟨hget, hpresent⟩, hlead, hpending, hx⟩
    exact ⟨key, c, ⟨hget, ⟨hpresent, hlead⟩, hpending⟩, hx⟩

theorem visible_sorted (m : TimedMap) (now : Nat) (r : ScanRequest) :
    (m.visible now r).Pairwise (fun x y => x.key < y.key) := by
  unfold visible
  rw [List.pairwise_map]
  apply List.Pairwise.filter
  refine (Std.ExtTreeMap.ordered_keys_toList (t := m.cells)).imp ?_
  intro x y hxy
  exact compareOfLessAndEq_eq_lt.mp hxy

theorem write_of_invalid (m : TimedMap) (now : Nat) {c : Command}
    {e : StoreError} (h : c.validate = .error e) :
    m.write now c = .error e := by
  simp [write, h, bind, Except.bind]

theorem write_of_valid (m : TimedMap) (now : Nat) {c : Command}
    (h : c.validate = .ok ()) :
    m.write now c =
      (c.effect now ((m.at? now c.key).map (·.value))).map
        (fun p => (⟨p.1, c.key, p.2.map (·.value)⟩, m.assign c.key p.2)) := by
  rw [write, h]
  cases c.effect now ((m.at? now c.key).map (·.value)) with
  | error e => rfl
  | ok p => rfl

theorem perform_write_ok {m t : TimedMap} {now : Nat} {c : Command}
    {change : Change} (h : m.write now c = .ok (change, t)) :
    m.perform now (.write c) =
      (some (.written (.ok ((m.at? now c.key).map (·.value)))),
        [change], t) := by
  simp [perform, h]

theorem perform_write_error {m : TimedMap} {now : Nat} {c : Command}
    {e : StoreError} (h : m.write now c = .error e) :
    m.perform now (.write c) = (some (.written (.error e)), [], m) := by
  simp [perform, h]

theorem perform_delete_invalid (m : TimedMap) (now : Nat) {key : String}
    {e : StoreError} (h : (Command.delete key).validate = .error e) :
    m.perform now (.delete key) = (some (.deleted (.error e)), [], m) := by
  simp [perform, h]

theorem perform_delete_free {m : TimedMap} {now : Nat} {key : String}
    (hvalid : (Command.delete key).validate = .ok ())
    (hfree : m.at? now key = none) :
    m.perform now (.delete key) = (some (.deleted (.ok false)), [], m) := by
  simp [perform, hvalid, hfree]

theorem perform_delete_taken {m : TimedMap} {now : Nat} {key : String}
    (hvalid : (Command.delete key).validate = .ok ())
    (htaken : m.at? now key ≠ none) :
    m.perform now (.delete key) =
      (some (.deleted (.ok true)), [⟨.delete, key, none⟩],
        m.assign key none) := by
  rcases Option.ne_none_iff_exists'.mp htaken with ⟨c, hc⟩
  simp [perform, hvalid, hc]

/-- Sweeps are nothing to a timed map. -/
theorem play_filter_not_isSweep (m : TimedMap) (run : List Operation.Call) :
    m.play (run.filter (fun c => !c.isSweep)) = m.play run := by
  induction run generalizing m with
  | nil => rfl
  | cons c rest ih =>
      by_cases hsweep : c.operation = .sweep
      · rw [List.filter_cons_of_neg (by simp [Operation.Call.isSweep, hsweep]),
          ih]
        simp [play, hsweep, perform]
      · rw [List.filter_cons_of_pos (by simp [Operation.Call.isSweep, hsweep])]
        simp only [play, ih]

end TimedMap
end FairLease
