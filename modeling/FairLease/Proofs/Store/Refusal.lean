import Mathlib.Data.List.Infix
import FairLease.Proofs.Store.Change
import FairLease.Proofs.Store.Listing

/-!
# Refused changes of the in-memory store

A command that is refused is logged like any other. Nothing else comes of it,
but that a lapsed entry of its key expires if the command is valid. Since only
valid commands store anything, keys and values stay within their limits.
-/

namespace FairLease

/-!
# Valid commands

What a valid command stores is within the limits, and under a key that is.
-/

structure IsStorable (key value : String) : Prop where
  nonempty : key ≠ ""
  key_le : key.utf8ByteSize ≤ maxKeySize
  value_le : value.utf8ByteSize ≤ maxValueSize

namespace Command

theorem checkKey_eq_ok_iff {key : String} :
    checkKey key = .ok () <-> key ≠ "" ∧ key.utf8ByteSize ≤ maxKeySize := by
  unfold checkKey
  by_cases hempty : key = ""
  · simp [hempty]
  · by_cases hlong : maxKeySize < key.utf8ByteSize
    · simp [hempty, hlong, Nat.not_le.mpr hlong]
    · simp [hempty, hlong, Nat.le_of_not_lt hlong]

theorem checkValue_eq_ok_iff {value : String} :
    checkValue value = .ok () <-> value.utf8ByteSize ≤ maxValueSize := by
  unfold checkValue
  by_cases hlong : maxValueSize < value.utf8ByteSize
  · simp [hlong, Nat.not_le.mpr hlong]
  · simp [hlong, Nat.le_of_not_lt hlong]

theorem check_bind_eq_ok_iff {first second : Except StoreError Unit} :
    (first >>= fun _ => second) = .ok () <-> first = .ok () ∧
      second = .ok () := by
  cases first with
  | error e => simp [bind, Except.bind]
  | ok => simp [bind, Except.bind]

theorem checkKey_of_validate {c : Command} (h : c.validate = .ok ()) :
    checkKey c.key = .ok () := by
  cases c with
  | delete key => exact h
  | set | setWithTtl | createWithTtl | compareAndSwap | compareAndSwapWithTtl =>
      simp only [validate, check_bind_eq_ok_iff] at h
      exact h.left

theorem effect_isStorable {c : Command} (hvalid : c.validate = .ok ())
    {now : Nat} {current : Option String} {action : Action} {cell : Cell}
    (heffect : c.effect now current = .ok (action, some cell)) :
    IsStorable c.key cell.value := by
  rcases checkKey_eq_ok_iff.mp (checkKey_of_validate hvalid) with
    ⟨hnonempty, hkey⟩
  refine ⟨hnonempty, hkey, checkValue_eq_ok_iff.mp ?_⟩
  cases c with
  | set key value =>
      simp only [validate, check_bind_eq_ok_iff] at hvalid
      cases heffect
      exact hvalid.right
  | setWithTtl key value ttlMs =>
      simp only [validate, check_bind_eq_ok_iff] at hvalid
      cases heffect
      exact hvalid.right.left
  | createWithTtl key value ttlMs =>
      simp only [validate, check_bind_eq_ok_iff] at hvalid
      cases current with
      | none =>
          cases heffect
          exact hvalid.right.left
      | some old => cases heffect
  | compareAndSwap key expected newValue =>
      have hnew : checkValue newValue = .ok () := by
        simp only [validate, check_bind_eq_ok_iff] at hvalid
        cases expected with
        | none => exact hvalid.right
        | some value => exact (check_bind_eq_ok_iff.mp hvalid.right).right
      simp only [effect] at heffect
      split at heffect
      · cases heffect
      · split at heffect <;> cases heffect <;> exact hnew
  | compareAndSwapWithTtl key expected newValue ttlMs =>
      simp only [validate, check_bind_eq_ok_iff] at hvalid
      simp only [effect] at heffect
      split at heffect
      · cases heffect
        exact hvalid.right.right.left
      · cases heffect
  | delete key =>
      cases current <;> cases heffect

end Command

def Operation.command? : Operation -> Option Command
  | .write c => some c
  | .delete key => some (.delete key)
  | .read _ | .scan _ | .sweep => none

namespace MemoryStore

/-!
# Refusals

An operation is refused before its key is looked at, or when a lapsed entry of
the key is already out of the way.
-/

/-- The operation is answered by an error, or says that there was nothing to
delete. -/
def IsRefused (s : MemoryStore) (now : Nat) : Operation -> Prop
  | .write c => exists e, (s.write now c).1 = .error e
  | .delete key =>
      (exists e, (s.delete now key).1 = .error e) ∨
        exists r, (s.delete now key).1 = .ok r ∧ r.isDeleted = false
  | .read _ | .scan _ | .sweep => False

def HoldsLapsed (s : MemoryStore) (now : Nat) (key : String) : Prop :=
  exists e, s.get? key = some e ∧ e.hasLapsed now = true

structure Rejects (now : Nat) (c : Command) (s t : MemoryStore) : Prop where
  logged : t.log.toList =
    (if s.log.size = maxLogSize then s.log.toList.tail else s.log.toList) ++ [c]
  kept : ¬ (c.validate = .ok () ∧ s.HoldsLapsed now c.key) ->
    t.entries = s.entries ∧ t.revision = s.revision ∧ t.events = s.events
  expired : c.validate = .ok () -> s.HoldsLapsed now c.key ->
    t.entries = s.entries.erase c.key ∧ t.revision = s.revision + 1 ∧
      t.events = s.events.push ⟨.expire, c.key, none, s.revision + 1⟩

theorem purge_of_holdsLapsed {s : MemoryStore} {now : Nat} {key : String}
    (h : s.HoldsLapsed now key) : s.purge now key = s.remove .expire key := by
  rcases h with ⟨e, hget, hlapsed⟩
  simp only [purge, hget, hlapsed, if_true]

theorem purge_of_not_holdsLapsed {s : MemoryStore} {now : Nat} {key : String}
    (h : ¬ s.HoldsLapsed now key) : s.purge now key = s := by
  cases hget : s.get? key with
  | none => simp only [purge, hget]
  | some e =>
      have hthere : ¬ e.hasLapsed now = true := fun hlapsed =>
        h ⟨e, hget, hlapsed⟩
      simp only [purge, hget]
      exact if_neg hthere

theorem toList_log_record (s : MemoryStore) (c : Command) :
    (s.record c).log.toList =
      (if s.log.size = maxLogSize then s.log.toList.tail
        else s.log.toList) ++ [c] := by
  unfold record
  by_cases hfull : s.log.size = maxLogSize
  · simp only [hfull, if_true, Array.toList_push, Array.toList_extract]
    rw [← hfull, ← Array.length_toList, List.extract_eq_take_drop,
      List.drop_one, List.take_of_length_le (Nat.le_of_eq List.length_tail)]
  · simp only [hfull, if_false, Array.toList_push]

theorem rejects_of_invalid {c : Command} (h : c.validate ≠ .ok ())
    (s : MemoryStore) (now : Nat) :
    Rejects now c s (s.record c) where
  logged := toList_log_record s c
  kept := fun _ => ⟨rfl, rfl, rfl⟩
  expired := fun hvalid => absurd hvalid h

theorem rejects_of_valid {c : Command} (h : c.validate = .ok ())
    (s : MemoryStore) (now : Nat) :
    Rejects now c s ((s.record c).purge now c.key) where
  logged := by
    rw [log_purge]
    exact toList_log_record s c
  kept := by
    intro hkept
    have hthere : ¬ (s.record c).HoldsLapsed now c.key := fun hlapsed =>
      hkept ⟨h, hlapsed⟩
    rw [purge_of_not_holdsLapsed hthere]
    exact ⟨rfl, rfl, rfl⟩
  expired := by
    intro _ hlapsed
    have hrecorded : (s.record c).HoldsLapsed now c.key := hlapsed
    rw [purge_of_holdsLapsed hrecorded]
    exact ⟨rfl, rfl, rfl⟩

/-- The key is left alone, or at most rid of what has lapsed. -/
theorem IsRefused.rejects {s : MemoryStore} {now : Nat} {op : Operation}
    (h : s.IsRefused now op) {c : Command} (hc : op.command? = some c) :
    Rejects now c s (s.perform now op) := by
  cases op with
  | read | scan | sweep => cases hc
  | write d =>
      cases hc
      rcases h with ⟨refusal, hrefused⟩
      rcases write_effect_cases s now c with
        ⟨e, hinvalid, hwrite⟩ | ⟨hvalid, e, _, hwrite⟩ | ⟨_, action, cell, _,
          w, _, hwrite⟩
      · rw [perform, hwrite]
        exact rejects_of_invalid (by simp [hinvalid]) s now
      · rw [perform, hwrite]
        exact rejects_of_valid hvalid s now
      · rw [hwrite] at hrefused
        cases hrefused
  | delete key =>
      cases hc
      rcases delete_effect_cases s now key with
        ⟨e, hinvalid, hdelete⟩ | ⟨hvalid, _, hdelete⟩ | ⟨_, _, hdelete⟩
      · rw [perform, hdelete]
        exact rejects_of_invalid (by simp [hinvalid]) s now
      · rw [perform, hdelete]
        exact rejects_of_valid hvalid s now
      · rw [IsRefused, hdelete] at h
        rcases h with ⟨e, herror⟩ | ⟨r, hr, hnothing⟩
        · cases herror
        · cases hr
          cases hnothing

/-!
# What is stored

Every operation stores what a valid command says, or nothing.
-/

def IsBounded (s : MemoryStore) : Prop :=
  forall key e, s.get? key = some e -> IsStorable key e.value

section

variable {s t : MemoryStore} {now : Nat}

theorem IsBounded.purged (h : s.IsBounded) (hst : Purged now s t) :
    t.IsBounded :=
  fun key e hget => h key e (hst.get?_of_get? hget)

theorem IsBounded.insert (h : s.IsBounded) {key value : String}
    (hfits : IsStorable key value) (action : Action) (deadline : Option Nat) :
    (s.insert action key value deadline).IsBounded := by
  intro k e hget
  rw [get?_insert] at hget
  by_cases hk : key = k
  · rw [if_pos hk] at hget
    cases hget
    rw [← hk]
    exact hfits
  · rw [if_neg hk] at hget
    exact h k e hget

theorem IsBounded.remove (h : s.IsBounded) (action : Action) (key : String) :
    (s.remove action key).IsBounded := by
  intro k e hget
  rw [get?_remove] at hget
  by_cases hk : key = k
  · rw [if_pos hk] at hget
    cases hget
  · rw [if_neg hk] at hget
    exact h k e hget

theorem IsBounded.write (h : s.IsBounded) (now : Nat) (c : Command) :
    (s.write now c).2.IsBounded := by
  have hrecorded : (s.record c).IsBounded := h
  have hpurged : ((s.record c).purge now c.key).IsBounded :=
    hrecorded.purged (purged_purge (s.record c) now c.key)
  rcases write_effect_cases s now c with
    ⟨e, _, hwrite⟩ | ⟨_, e, _, hwrite⟩ | ⟨hvalid, action, cell, heffect,
      w, _, hwrite⟩
  · rw [hwrite]
    exact hrecorded
  · rw [hwrite]
    exact hpurged
  · rw [hwrite]
    cases cell with
    | none => exact hpurged.remove action c.key
    | some cell =>
        exact hpurged.insert (Command.effect_isStorable hvalid heffect)
          action cell.deadline

theorem IsBounded.perform (h : s.IsBounded) (now : Nat) (op : Operation) :
    (s.perform now op).IsBounded := by
  cases op with
  | write c => exact h.write now c
  | read key => exact h.purged (purged_read s now key)
  | delete key =>
      rcases delete_cases s now key with hpurged | hgone
      · exact h.purged hpurged
      · intro k e hget
        rw [MemoryStore.perform, hgone k] at hget
        by_cases hk : key = k
        · rw [if_pos hk] at hget
          cases hget
        · rw [if_neg hk] at hget
          exact h k e hget
  | scan r => exact h.purged (purged_scan s now r)
  | sweep => exact h.purged (purged_expireDue s now)

end

/-!
# What is logged

The log grows by one command at a time and is as long as it may be.
-/

/-- The log is the end of the commands, as long as there is room for it. -/
structure Logs (s : MemoryStore) (commands : List Command) : Prop where
  suffix : s.log.toList <:+ commands
  size : s.log.size = min commands.length maxLogSize

theorem log_perform (s : MemoryStore) (now : Nat) (op : Operation) :
    (s.perform now op).log =
      match op.command? with
      | some c => (s.record c).log
      | none => s.log := by
  cases op with
  | read key => exact log_purge s now key
  | scan r => exact log_purgeAll s now _
  | sweep => exact log_purgeAll s now _
  | write c =>
      have hassigned (t : MemoryStore) (action : Action) (cell : Option Cell) :
          (t.assign action c.key cell).log = t.log := by
        cases cell <;> rfl
      rcases write_effect_cases s now c with
        ⟨e, _, hwrite⟩ | ⟨_, e, _, hwrite⟩ | ⟨_, action, cell, _, w, _, hwrite⟩
      · rw [perform, hwrite]
        rfl
      · rw [perform, hwrite]
        exact log_purge (s.record c) now c.key
      · rw [perform, hwrite]
        exact (hassigned _ action cell).trans (log_purge (s.record c) now c.key)
  | delete key =>
      have hpurged := log_purge (s.record (.delete key)) now key
      rcases delete_effect_cases s now key with
        ⟨e, _, hdelete⟩ | ⟨_, _, hdelete⟩ | ⟨_, _, hdelete⟩
      · rw [perform, hdelete]
        rfl
      · rw [perform, hdelete]
        exact hpurged
      · rw [perform, hdelete]
        exact hpurged

theorem Logs.of_log_eq {s t : MemoryStore} {commands : List Command}
    (h : s.Logs commands) (hlog : t.log = s.log) : t.Logs commands := by
  constructor
  · rw [hlog]
    exact h.suffix
  · rw [hlog]
    exact h.size

theorem Logs.record {s : MemoryStore} {commands : List Command}
    (h : s.Logs commands) (c : Command) :
    (s.record c).Logs (commands ++ [c]) := by
  have hlog := toList_log_record s c
  have hsize := h.size
  rcases h.suffix with ⟨before, hbefore⟩
  have hlength : before.length + s.log.size = commands.length := by
    simpa using congrArg List.length hbefore
  by_cases hfull : s.log.size = maxLogSize
  · rw [if_pos hfull] at hlog
    constructor
    · rw [hlog]
      have htail : s.log.toList.tail <:+ commands :=
        (List.tail_suffix _).trans h.suffix
      rcases htail with ⟨dropped, hdropped⟩
      exact ⟨dropped, by rw [← List.append_assoc, hdropped]⟩
    · have hpositive : 0 < maxLogSize := by decide
      rw [← Array.length_toList, hlog, List.length_append, List.length_append,
        List.length_tail, Array.length_toList, List.length_singleton]
      omega
  · rw [if_neg hfull] at hlog
    constructor
    · rw [hlog]
      exact ⟨before, by rw [← List.append_assoc, hbefore]⟩
    · rw [← Array.length_toList, hlog, List.length_append, List.length_append,
        Array.length_toList, List.length_singleton]
      omega

/-!
# Stores in use
-/

/-- What can be done to a store: an operation or a sweep at some time, and the
announcement of an event that did not happen. -/
inductive Use where
  | operate (c : Operation.Call)
  | announce (e : Event)
  deriving DecidableEq, Repr

def Use.command? : Use -> Option Command
  | .operate c => c.operation.command?
  | .announce _ => none

def use (s : MemoryStore) : Use -> MemoryStore
  | .operate c => s.perform c.time c.operation
  | .announce e => s.publish e

def used (run : List Use) (n : Nat) : MemoryStore :=
  stateAt use empty run n

def submitted (run : List Use) : List Command :=
  run.filterMap Use.command?

theorem isBounded_used (run : List Use) (n : Nat) : (used run n).IsBounded := by
  refine stateAt_invariant (P := IsBounded) ?_ ?_ run n
  · intro key e hget
    rw [get?_empty] at hget
    cases hget
  · intro s u h
    cases u with
    | operate c => exact h.perform c.time c.operation
    | announce e => exact h

theorem Logs.use {s : MemoryStore} {commands : List Command}
    (h : s.Logs commands) (u : Use) :
    (s.use u).Logs (commands ++ u.command?.toList) := by
  cases u with
  | announce e =>
      rw [Use.command?, Option.toList_none, List.append_nil]
      exact h.of_log_eq rfl
  | operate c =>
      have hlog := log_perform s c.time c.operation
      cases hc : c.operation.command? with
      | none =>
          rw [hc] at hlog
          rw [Use.command?, hc, Option.toList_none, List.append_nil]
          exact h.of_log_eq hlog
      | some d =>
          rw [hc] at hlog
          rw [Use.command?, hc, Option.toList_some]
          exact (h.record d).of_log_eq hlog

theorem logs_used (run : List Use) (n : Nat) :
    (used run n).Logs (submitted (run.take n)) := by
  induction n with
  | zero => exact ⟨List.nil_suffix, rfl⟩
  | succ n ih =>
      rw [List.take_add_one, submitted, List.filterMap_append]
      cases hn : run[n]? with
      | none =>
          rw [used, stateAt_succ_of_none hn, Option.toList_none,
            List.filterMap_nil, List.append_nil]
          exact ih
      | some u =>
          have hlast : List.filterMap Use.command? [u] = u.command?.toList := by
            cases hu : u.command? <;> simp [hu]
          rw [used, stateAt_succ hn, Option.toList_some, hlast]
          exact ih.use u

/-- Whatever is done to a new store, in any order and at any times: (1) a write
or a deletion that is refused only adds its command to the log, which loses its
oldest if it is full, and if the command is valid a lapsed entry of its key
expires; (2) what is stored is within the limits, under a key that is; (3) the
log is the end of the commands submitted so far, and all of them while there is
room. -/
theorem refusals_leave_no_trace (run : List Use) (n : Nat) :
    (forall now op c, op.command? = some c -> (used run n).IsRefused now op ->
      Rejects now c (used run n) ((used run n).perform now op)) ∧
    (forall key e, (used run n).get? key = some e ->
      key ≠ "" ∧ key.utf8ByteSize ≤ maxKeySize ∧
      e.value.utf8ByteSize ≤ maxValueSize) ∧
    (used run n).log.toList <:+ submitted (run.take n) ∧
    (used run n).log.size = min (submitted (run.take n)).length maxLogSize := by
  have hlogs := logs_used run n
  refine ⟨?_, ?_, hlogs.suffix, hlogs.size⟩
  · intro now op c hc hrefused
    exact hrefused.rejects hc
  · intro key e hget
    rcases isBounded_used run n key e hget with ⟨hnonempty, hkey, hvalue⟩
    exact ⟨hnonempty, hkey, hvalue⟩

/-- A claim and a value are stored, and two commands are refused: one without a
key, and one that finds nothing to delete. -/
def refusing : List Use :=
  [.operate ⟨0, .write (.createWithTtl "/ips/x" "a" 10)⟩,
    .operate ⟨0, .write (.set "/ips/y" "b")⟩,
    .operate ⟨5000000, .write (.set "" "c")⟩,
    .announce ⟨.delete, "/ips/y", none, 9⟩,
    .operate ⟨6000000, .delete "/ips/z"⟩]

/-- Both renewals come too late for the claim. The second has no lifetime, and
does not even make the claim expire. -/
theorem refusals_leave_no_trace_refusing :
    (used refusing 5).log =
      #[.createWithTtl "/ips/x" "a" 10, .set "/ips/y" "b", .set "" "c",
        .delete "/ips/z"] ∧
    (used refusing 5).log.size = min (submitted refusing).length maxLogSize ∧
    ((used refusing 5).perform 20000000
      (.write (.compareAndSwapWithTtl "/ips/x" "a" "a" 10))).entries =
        (used refusing 5).entries.erase "/ips/x" ∧
    ((used refusing 5).perform 20000000
      (.write (.compareAndSwapWithTtl "/ips/x" "a" "a" 0))).entries =
        (used refusing 5).entries := by
  rcases refusals_leave_no_trace refusing 5 with ⟨hrejects, _, _, hsize⟩
  have hlapsed : (used refusing 5).HoldsLapsed 20000000 "/ips/x" :=
    ⟨⟨"a", 1, 1, some 10000000⟩, by decide +kernel, by decide⟩
  refine ⟨by decide +kernel, hsize, ?_, ?_⟩
  · have hlate :=
      hrejects 20000000 (.write (.compareAndSwapWithTtl "/ips/x" "a" "a" 10))
        _ rfl
      ⟨.compareFailed "/ips/x" (some "a") none, by decide +kernel⟩
    exact (hlate.expired rfl hlapsed).left
  · have hinvalid :=
      hrejects 20000000 (.write (.compareAndSwapWithTtl "/ips/x" "a" "a" 0))
        _ rfl
      ⟨.invalidTtl "/ips/x", by decide +kernel⟩
    exact (hinvalid.kept (fun h => by cases h.left)).left

end MemoryStore
end FairLease
