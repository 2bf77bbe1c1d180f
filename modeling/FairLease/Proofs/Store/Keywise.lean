import FairLease.Proofs.Store.Change

/-!
# Stores key by key

An operation on a key is answered from the value of that key and changes no
other. In this two stores can be compared that count revisions and lifetimes in
different ways.
-/

namespace FairLease

/-!
# Operations on a key

An operation has a meaning for the value of its key: an answer, and the value
that is there afterwards. Answers leave revisions and lifetimes out.
-/

inductive KeyOperation where
  | write (c : Command)
  | read (key : String)
  | delete (key : String)
  deriving DecidableEq, Repr

inductive KeyAnswer where
  /-- The command that was carried out and the value that was there before. -/
  | written (result : Except StoreError (Option Command × Option String))
  | found (result : Except StoreError (Option String))
  | deleted (result : Except StoreError DeleteResult)
  deriving DecidableEq, Repr

namespace KeyAnswer

def ofWrite (result : Except StoreError WriteResult) : KeyAnswer :=
  .written (result.map (fun w => (w.command, w.prevValue)))

def ofRead (result : Except StoreError ReadResult) : KeyAnswer :=
  .found (result.map (fun r => r.entry.map (·.value)))

end KeyAnswer

namespace Command

/-- The value that a valid command leaves, whenever it is carried out. -/
def valueAfter (c : Command) (current : Option String) :
    Except StoreError (Option String) :=
  (c.effect 0 current).map (fun p => p.2.map (·.value))

def expectation : Command -> Option String
  | compareAndSwap _ expected _ => expected
  | compareAndSwapWithTtl _ expected _ _ => some expected
  | _ => none

theorem map_effect (c : Command) (now : Nat) (current : Option String) :
    (c.effect now current).map (fun p => p.2.map (·.value)) =
      c.valueAfter current := by
  cases c with
  | set | compareAndSwap => rfl
  | setWithTtl =>
      simp only [valueAfter, effect, Except.map, Option.map_some, Cell.lasting]
  | createWithTtl | delete =>
      cases current <;> simp only [valueAfter, effect, Except.map,
        Option.map_some, Cell.lasting]
  | compareAndSwapWithTtl =>
      simp only [valueAfter, effect]
      split <;> simp only [Except.map, Option.map_some, Cell.lasting]

end Command

namespace KeyOperation

def key : KeyOperation -> String
  | write c => c.key
  | read key => key
  | delete key => key

def expectation : KeyOperation -> Option String
  | write c => c.expectation
  | _ => none

def ttlMs? : KeyOperation -> Option Nat
  | write c => c.validate.toOption.bind (fun _ => c.ttlMs?)
  | _ => none

def meaning (current : Option String) :
    KeyOperation -> KeyAnswer × Option String
  | write c =>
      match c.validate.bind (fun _ => c.valueAfter current) with
      | .error e => (.written (.error e), current)
      | .ok value => (.written (.ok (some c, current)), value)
  | read _ => (.found (.ok current), current)
  | delete key =>
      match (Command.delete key).validate with
      | .error e => (.deleted (.error e), current)
      | .ok () => (.deleted (.ok ⟨key, current.isSome⟩), none)

/-- The operation was answered by what it means to the value of its key, and
certain keys have the values afterwards that it leaves. -/
def IsDone (op : KeyOperation) (keys : String -> Prop)
    (before after : String -> Option String) (answer : KeyAnswer) : Prop :=
  exists value, op.meaning (before op.key) = (answer, value) ∧
    forall k, keys k -> after k = if op.key = k then value else before k

section

variable {op : KeyOperation} {keys : String ->
  Prop} {answer answer' : KeyAnswer}
  {before after before' after' : String -> Option String}

theorem isDone_of_same
    (hmeaning : op.meaning (before op.key) = (answer, before op.key))
    (hsame : forall k, keys k -> after k = before k) :
    op.IsDone keys before after answer := by
  refine ⟨before op.key, hmeaning, ?_⟩
  intro k hk
  rw [hsame k hk]
  exact (ite_eq_right_iff.mpr (congrArg before)).symm

/-- Where the values agree an operation is answered in the same way, and they
agree again. -/
theorem IsDone.agree (h : op.IsDone keys before after answer)
    (h' : op.IsDone keys before' after' answer') (hkey : keys op.key)
    (hbefore : forall k, keys k -> before k = before' k) :
    answer = answer' ∧ forall k, keys k -> after k = after' k := by
  rcases h with ⟨value, hmeaning, hvalue⟩
  rcases h' with ⟨value', hmeaning', hvalue'⟩
  rw [hbefore op.key hkey, hmeaning', Prod.mk.injEq] at hmeaning
  rcases hmeaning with ⟨rfl, rfl⟩
  refine ⟨rfl, ?_⟩
  intro k hk
  rw [hvalue k hk, hvalue' k hk, hbefore k hk]

theorem meaning_write_of_error {c : Command} {current : Option String}
    {e : StoreError}
    (h : c.validate.bind (fun _ => c.valueAfter current) = .error e) :
    (write c).meaning current = (.written (.error e), current) := by
  rw [meaning, h]

theorem meaning_write_of_ok {c : Command} {current value : Option String}
    (h : c.validate.bind (fun _ => c.valueAfter current) = .ok value) :
    (write c).meaning current = (.written (.ok (some c, current)), value) := by
  rw [meaning, h]

theorem meaning_delete_of_invalid {key : String} {e : StoreError}
    (h : (Command.delete key).validate = .error e) (current : Option String) :
    (delete key).meaning current = (.deleted (.error e), current) := by
  rw [meaning, h]

theorem meaning_delete_of_valid {key : String}
    (h : (Command.delete key).validate = .ok ()) (current : Option String) :
    (delete key).meaning current =
      (.deleted (.ok ⟨key, current.isSome⟩), none) := by
  rw [meaning, h]

end

end KeyOperation

/-!
# The in-memory store
-/

structure KeyOperation.Call where
  time : Nat
  operation : KeyOperation
  deriving DecidableEq, Repr

namespace MemoryStore

def respond (s : MemoryStore) (now : Nat) :
    KeyOperation -> KeyAnswer × MemoryStore
  | .write c => (.ofWrite (s.write now c).1, (s.write now c).2)
  | .read key => (.ofRead (.ok (s.read now key).1), (s.read now key).2)
  | .delete key => (.deleted (s.delete now key).1, (s.delete now key).2)

def responses : MemoryStore -> List KeyOperation.Call -> List KeyAnswer
  | _, [] => []
  | s, c :: rest =>
      (s.respond c.time c.operation).1 ::
        (s.respond c.time c.operation).2.responses rest

/-- Whatever is stored under the key of an operation of the run has not lapsed
by then. -/
def Outlasts : MemoryStore -> List KeyOperation.Call -> Prop
  | _, [] => True
  | s, c :: rest => s.live? c.time c.operation.key = s.get? c.operation.key ∧
      (s.respond c.time c.operation).2.Outlasts rest

instance decidableOutlasts :
    (s : MemoryStore) -> (run : List KeyOperation.Call) ->
    Decidable (s.Outlasts run)
  | _, [] => .isTrue trivial
  | s, c :: rest =>
      have := decidableOutlasts (s.respond c.time c.operation).2 rest
      inferInstanceAs (Decidable (_ ∧ _))

section

variable {s : MemoryStore} {now : Nat}

theorem value?_purge_of_live? {key : String} (h : s.live? now key = s.get? key)
    (k : String) :
    (s.purge now key).value? k = s.value? k := by
  rw [value?, get?_purge]
  split
  · rename_i hk
    rw [← hk, h]
    rfl
  · rfl

theorem value?_assign (action : Action) (key : String) (cell : Option Cell)
    (k : String) :
    (s.assign action key cell).value? k =
      if key = k then cell.map (·.value) else s.value? k := by
  cases cell with
  | none =>
      rw [assign, value?, get?_remove]
      split <;> rfl
  | some c =>
      rw [assign, value?, get?_insert]
      split <;> rfl

theorem command_write {c : Command} {w : WriteResult}
    (h : (s.write now c).1 = .ok w) :
    w.command = some c := by
  unfold write at h
  cases hvalid : c.validate with
  | error e =>
      rw [hvalid] at h
      cases h
  | ok =>
      simp only [hvalid] at h
      split at h
      · cases h
      · cases h
        rfl

theorem isDone_write {c : Command} (h : s.live? now c.key = s.get? c.key)
    (keys : String -> Prop) :
    (KeyOperation.write c).IsDone keys s.value? (s.write now c).2.value?
      (.ofWrite (s.write now c).1) := by
  have hlive : (s.live? now c.key).map (·.value) = s.value? c.key := by
    rw [h]
    rfl
  have hpurge : forall k, ((s.record c).purge now c.key).value? k =
      s.value? k := fun k =>
    value?_purge_of_live? (s := s.record c) h k
  have heffect := c.map_effect now (s.value? c.key)
  rcases write_effect_cases s now c with
    ⟨e, hvalid, hwrite⟩ | ⟨hvalid, e, hrefused, hwrite⟩ |
      ⟨hvalid, action, cell, htaken, w, hprev, hwrite⟩
  · rw [hwrite]
    exact KeyOperation.isDone_of_same
      (KeyOperation.meaning_write_of_error (by rw [hvalid]; rfl)) fun _ _ => rfl
  · rw [hlive] at hrefused
    rw [hrefused] at heffect
    rw [hwrite]
    exact KeyOperation.isDone_of_same
      (KeyOperation.meaning_write_of_error (by rw [hvalid]; exact heffect.symm))
        fun k _ => hpurge k
  · rw [hlive] at htaken hprev
    rw [htaken] at heffect
    have hanswer : KeyAnswer.ofWrite (.ok w) =
        .written (.ok (some c, s.value? c.key)) := by
      rw [← hprev, ← command_write (congrArg Prod.fst hwrite)]
      rfl
    rw [hwrite, hanswer]
    refine ⟨cell.map (·.value),
      KeyOperation.meaning_write_of_ok (by rw [hvalid]; exact heffect.symm), ?_⟩
    intro k _
    rw [value?_assign, hpurge]
    rfl

theorem isDone_read {key : String} (h : s.live? now key = s.get? key)
    (keys : String -> Prop) :
    (KeyOperation.read key).IsDone keys s.value? (s.read now key).2.value?
      (.ofRead (.ok (s.read now key).1)) := by
  have hpurge := value?_purge_of_live? h
  have hvalue : (s.read now key).1.entry.map (·.value) = s.value? key := by
    rw [value_read, read, hpurge]
  have hanswer : KeyAnswer.ofRead (.ok (s.read now key).1) =
      .found (.ok (s.value? key)) := by
    rw [← hvalue]
    rfl
  rw [hanswer]
  exact KeyOperation.isDone_of_same rfl fun k _ => hpurge k

theorem isDone_delete {key : String} (h : s.live? now key = s.get? key)
    (keys : String -> Prop) :
    (KeyOperation.delete key).IsDone keys s.value? (s.delete now key).2.value?
      (.deleted (s.delete now key).1) := by
  have hpurge : forall k, ((s.record (.delete key)).purge now key).value? k =
      s.value? k := fun k =>
    value?_purge_of_live? (s := s.record (.delete key)) h k
  rcases delete_effect_cases s now key with
    ⟨e, hvalid, hdelete⟩ | ⟨hvalid, hfree, hdelete⟩ | ⟨hvalid, htaken, hdelete⟩
  · rw [hdelete]
    exact KeyOperation.isDone_of_same
      (KeyOperation.meaning_delete_of_invalid hvalid _) fun _ _ => rfl
  · have hnone : s.value? key = none := by
      rw [value?, ← h, hfree]
      rfl
    have hmeaning : (KeyOperation.delete key).meaning (s.value? key) =
        (.deleted (.ok ⟨key, false⟩), s.value? key) := by
      rw [KeyOperation.meaning_delete_of_valid hvalid, hnone]
      rfl
    rw [hdelete]
    exact KeyOperation.isDone_of_same hmeaning fun k _ => hpurge k
  · have hsome : (s.value? key).isSome = true := by
      rw [value?, ← h, Option.isSome_map]
      exact Option.isSome_iff_ne_none.mpr htaken
    have hmeaning := KeyOperation.meaning_delete_of_valid hvalid (s.value? key)
    rw [hsome] at hmeaning
    rw [hdelete]
    refine ⟨none, hmeaning, ?_⟩
    intro k _
    rw [← hpurge k]
    exact value?_assign (s :=
      (s.record (.delete key)).purge now key) .delete key none k

/-- What has not lapsed is all that an operation depends on. -/
theorem isDone_respond {op : KeyOperation}
    (h : s.live? now op.key = s.get? op.key) (keys : String -> Prop) :
    op.IsDone keys s.value? (s.respond now op).2.value?
      (s.respond now op).1 := by
  cases op with
  | write c => exact isDone_write h keys
  | read key => exact isDone_read h keys
  | delete key => exact isDone_delete h keys

end

end MemoryStore
end FairLease
