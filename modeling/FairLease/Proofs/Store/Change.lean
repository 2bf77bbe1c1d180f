import Mathlib.Logic.Relation
import FairLease.Proofs.Run
import FairLease.Proofs.Store.Contents
import FairLease.Proofs.Store.TimedMap

/-!
# Changes of the in-memory store

Every operation is a sequence of single changes: lapsed entries expire, and then
the key of the operation is given a value or deleted. It is said once what a
single change can be, and what a write does in terms of what its client sees.
-/

namespace FairLease

def Action.IsDue (isThere : Bool) (value : Option String) : Action -> Prop
  | .set => value ≠ none
  | .create => value ≠ none ∧ isThere = false
  | .compareAndSwap => value ≠ none ∧ isThere = true
  | .delete => value = none ∧ isThere = true
  | .expire => value = none ∧ isThere = true
  | .update => False
  | .compareAndDelete => False

theorem Command.effect_cases {c : Command} {now : Nat} {current : Option String}
    {action : Action} {cell : Option Cell}
    (h : c.effect now current = .ok (action, cell)) :
    action ≠ .expire ∧ action.IsDue current.isSome (cell.map (·.value)) := by
  cases c with
  | set | setWithTtl =>
      cases h
      simp [Action.IsDue]
  | createWithTtl =>
      cases current with
      | none =>
          cases h
          simp [Action.IsDue]
      | some value => cases h
  | compareAndSwap key expected newValue =>
      simp only [effect] at h
      split at h
      · cases h
      · rename_i hvalue
        rw [Decidable.not_not.mp hvalue]
        cases expected with
        | none =>
            cases h
            simp [Action.IsDue]
        | some value =>
            cases h
            simp [Action.IsDue]
  | compareAndSwapWithTtl key expected newValue ttlMs =>
      simp only [effect] at h
      split at h
      · rename_i hvalue
        cases h
        simp [Action.IsDue, hvalue]
      · cases h
  | delete key =>
      cases current with
      | none => cases h
      | some value =>
          cases h
          simp [Action.IsDue]

namespace MemoryStore

def perform (s : MemoryStore) (now : Nat) : Operation -> MemoryStore
  | .write c => (s.write now c).2
  | .read key => (s.read now key).2
  | .delete key => (s.delete now key).2
  | .scan r => (s.scan now r).2
  | .sweep => (s.expireDue now).2

def after (start : MemoryStore) (run : List Operation.Call) (n : Nat) :
    MemoryStore :=
  stateAt (fun s c => s.perform c.time c.operation) start run n

theorem after_succ {start : MemoryStore} {run : List Operation.Call} {n : Nat}
    {c : Operation.Call} (h : run[n]? = some c) :
    start.after run (n + 1) = (start.after run n).perform c.time c.operation :=
  stateAt_succ h

theorem after_succ_of_none {start : MemoryStore} {run : List Operation.Call}
    {n : Nat} (h : run[n]? = none) :
    start.after run (n + 1) = start.after run n :=
  stateAt_succ_of_none h

def assign (s : MemoryStore) (action : Action) (key : String) :
    Option Cell -> MemoryStore
  | some c => s.insert action key c.value c.deadline
  | none => s.remove action key

theorem events_assign (s : MemoryStore) (action : Action) (key : String)
    (cell : Option Cell) :
    (s.assign action key cell).events =
      s.events.push ⟨action, key, cell.map (·.value), s.revision + 1⟩ := by
  cases cell with
  | none => rfl
  | some c => rfl

/-!
# Writes

A write is checked, meets a key from which a lapsed entry has been removed, and
then has the effect that follows from the value that can be seen.
-/

theorem apply_eq (s : MemoryStore) (now : Nat) (c : Command) :
    s.apply now c =
      (c.effect now (s.value? c.key)).map (fun p =>
        s.assign p.1 c.key p.2) := by
  cases c with
  | set key value => rfl
  | setWithTtl key value ttlMs => rfl
  | createWithTtl key value ttlMs =>
      cases hget : s.get? key with
      | none => simp [apply, Command.effect, Command.key, value?, hget]; rfl
      | some e => simp [apply, Command.effect, Command.key, value?, hget]; rfl
  | compareAndSwap key expected newValue =>
      by_cases hvalue : (s.get? key).map (·.value) = expected
      · cases expected with
        | none => simp [apply, Command.effect, Command.key, value?, hvalue]; rfl
        | some value =>
            simp [apply, Command.effect, Command.key, value?, hvalue]; rfl
      · simp [apply, Command.effect, Command.key, value?, hvalue]; rfl
  | compareAndSwapWithTtl key expected newValue ttlMs =>
      by_cases hvalue : (s.get? key).map (·.value) = some expected
      · simp only [apply, Command.effect, Command.key, value?, hvalue,
          if_true]; rfl
      · simp only [apply, Command.effect, Command.key, value?, hvalue,
          if_false]; rfl
  | delete key =>
      cases hget : s.get? key with
      | none => simp [apply, Command.effect, Command.key, value?, hget]; rfl
      | some e => simp [apply, Command.effect, Command.key, value?, hget]; rfl

theorem value?_purge (s : MemoryStore) (now : Nat) (c : Command) :
    ((s.record c).purge now c.key).value? c.key =
      (s.live? now c.key).map (·.value) := by
  rw [value?, current_purge]

theorem write_effect_cases (s : MemoryStore) (now : Nat) (c : Command) :
    (exists e, c.validate = .error e ∧ s.write now c = (.error e, s.record c)) ∨
      (c.validate = .ok () ∧
        exists e, c.effect now ((s.live? now c.key).map (·.value)) = .error e ∧
          s.write now c = (.error e, (s.record c).purge now c.key)) ∨
      (c.validate = .ok () ∧
        exists action cell,
          c.effect now ((s.live? now c.key).map (·.value)) =
            .ok (action, cell) ∧
          exists w, w.prevValue = (s.live? now c.key).map (·.value) ∧
            s.write now c = (.ok w,
              ((s.record c).purge now c.key).assign action c.key cell)) := by
  have hvalue := value?_purge s now c
  have happly := apply_eq ((s.record c).purge now c.key) now c
  rw [hvalue] at happly
  rw [value?] at hvalue
  cases hvalid : c.validate with
  | error e => exact Or.inl ⟨e, rfl, by simp [write, hvalid]⟩
  | ok =>
      cases heffect : c.effect now ((s.live? now c.key).map (·.value)) with
      | error e =>
          rw [heffect] at happly
          exact Or.inr (Or.inl ⟨rfl, e, rfl,
            by simp [write, hvalid, happly, Except.map]⟩)
      | ok p =>
          rw [heffect] at happly
          refine Or.inr (Or.inr ⟨rfl, p.1, p.2, rfl, _, ?_, by
            simp [write, hvalid, happly, Except.map]; rfl⟩)
          exact hvalue

theorem delete_effect_cases (s : MemoryStore) (now : Nat) (key : String) :
    (exists e, (Command.delete key).validate = .error e ∧
        s.delete now key = (.error e, s.record (.delete key))) ∨
      ((Command.delete key).validate = .ok () ∧ s.live? now key = none ∧
        s.delete now key =
          (.ok ⟨key, false⟩, (s.record (.delete key)).purge now key)) ∨
      ((Command.delete key).validate = .ok () ∧ s.live? now key ≠ none ∧
        s.delete now key =
          (.ok ⟨key, true⟩, ((s.record (.delete key)).purge now key).remove
            .delete key)) := by
  have hget : ((s.record (.delete key)).purge now key).get? key =
      s.live? now key :=
    current_purge s now (.delete key)
  cases hvalid : (Command.delete key).validate with
  | error e => exact Or.inl ⟨e, rfl, by simp [delete, hvalid]⟩
  | ok =>
      cases hlive : s.live? now key with
      | none =>
          rw [hlive] at hget
          exact Or.inr (Or.inl ⟨rfl, rfl, by simp [delete, hvalid, hget]⟩)
      | some e =>
          rw [hlive] at hget
          exact Or.inr (Or.inr ⟨rfl, by simp, by simp [delete, hvalid, hget]⟩)

/-!
# Single changes

The log of commands grows, or one key changes. An entry expires exactly if it
has lapsed, and nothing else happens to one that has.
-/

inductive Update (now : Nat) (s : MemoryStore) : MemoryStore -> Prop where
  | record (c : Command) : Update now s (s.record c)
  | assign {action : Action} {key : String} {cell : Option Cell} :
      action.IsDue (s.get? key).isSome (cell.map (·.value)) ->
      (action = .expire <-> s.live? now key ≠ s.get? key) ->
      Update now s (s.assign action key cell)

section

variable {now : Nat}

theorem updates_purge (s : MemoryStore) (key : String) :
    Relation.ReflTransGen (Update now) s (s.purge now key) := by
  cases hget : s.get? key with
  | none =>
      rw [purge, hget]
  | some e =>
      cases hlapsed : e.hasLapsed now with
      | false =>
          simp only [purge, hget, hlapsed, Bool.false_eq_true, if_false]
          exact .refl
      | true =>
          simp only [purge, hget, hlapsed, if_true]
          have hgone : s.live? now key ≠ s.get? key := by
            simp [live?, hget, hlapsed]
          have hexpire : Update now s (s.assign .expire key none) :=
            .assign (by simp [Action.IsDue, hget]) (by simp [hgone])
          exact .single hexpire

theorem updates_purgeAll (s : MemoryStore) (select : String -> Bool) :
    Relation.ReflTransGen (Update now) s (s.purgeAll now select) := by
  unfold purgeAll
  induction s.lapsedKeys now select generalizing s with
  | nil => exact .refl
  | cons key rest ih => exact (updates_purge s key).trans (ih (s.purge now key))

theorem updates_purge_record (s : MemoryStore) (c : Command) (key : String) :
    Relation.ReflTransGen (Update now) s ((s.record c).purge now key) :=
  .head (.record c) (updates_purge (s.record c) key)

theorem update_assign_purge {action : Action} {cell : Option Cell}
    (s : MemoryStore) (c : Command) (haction : action ≠ .expire)
    (hdue : action.IsDue (s.live? now c.key).isSome (cell.map (·.value))) :
    Update now ((s.record c).purge now c.key)
      (((s.record c).purge now c.key).assign action c.key cell) := by
  have hget := current_purge s now c
  have hlive : ((s.record c).purge now c.key).live? now c.key =
      s.live? now c.key := by
    rw [live?_purge, live?_record]
  apply Update.assign
  · rw [hget]
    exact hdue
  · rw [hget, hlive]
    simp [haction]

theorem updates_perform (s : MemoryStore) (op : Operation) :
    Relation.ReflTransGen (Update now) s (s.perform now op) := by
  cases op with
  | write c =>
      rcases write_effect_cases s now c with
        ⟨e, _, hwrite⟩ | ⟨_, e, _, hwrite⟩ | ⟨_, action, cell, heffect,
          w, _, hwrite⟩
      · rw [perform, hwrite]
        exact .single (.record c)
      · rw [perform, hwrite]
        exact updates_purge_record s c c.key
      · rw [perform, hwrite]
        rcases Command.effect_cases heffect with ⟨haction, hdue⟩
        rw [Option.isSome_map] at hdue
        exact (updates_purge_record s c c.key).tail
          (update_assign_purge s c haction hdue)
  | read key => exact updates_purge s key
  | delete key =>
      rcases delete_effect_cases s now key with
        ⟨e, _, hdelete⟩ | ⟨_, _, hdelete⟩ | ⟨_, htaken, hdelete⟩
      · rw [perform, hdelete]
        exact .single (.record _)
      · rw [perform, hdelete]
        exact updates_purge_record s _ key
      · rw [perform, hdelete]
        have hdue : Action.delete.IsDue (s.live? now key).isSome
            ((none : Option Cell).map (·.value)) :=
          ⟨rfl, Option.isSome_iff_ne_none.mpr htaken⟩
        exact (updates_purge_record s (.delete key) key).tail
          (update_assign_purge s (.delete key) (by decide) hdue)
  | scan r => exact updates_purgeAll s _
  | sweep => exact updates_purgeAll s _

theorem perform_keeps {P : MemoryStore -> Prop}
    (hupdate : forall s t, Update now s t -> P s -> P t) {s : MemoryStore}
    (h : P s) (op : Operation) : P (s.perform now op) := by
  have hkeeps {t : MemoryStore} (hst : Relation.ReflTransGen (Update now) s t) :
      P t := by
    induction hst with
    | refl => exact h
    | tail _ hstep ih => exact hupdate _ _ hstep ih
  exact hkeeps (updates_perform s op)

end

end MemoryStore
end FairLease
