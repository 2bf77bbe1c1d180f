import Mathlib.Data.List.Infix
import FairLease.Proofs.Store.Contents

/-!
# What happens to a stored value

The published events tell when a key was removed. A store whose clients only
create claims, renew them with their own value and delete them never overwrites
one value with another: a value stays until an event removes its key.
-/

namespace FairLease
namespace MemoryStore

/-- An event that was published after `s` and not after `t` deletes the key or
lets it expire. -/
def RemovedBetween (s t : MemoryStore) (key : String) : Prop :=
  exists e, e ∈ t.events.toList.drop s.events.size ∧ e.key = key ∧
    (e.action = .delete ∨ e.action = .expire)

/-- Nothing was published that `t` does not know, and every value of `s` is
still there unless its key was removed. -/
structure KeepsValues (s t : MemoryStore) : Prop where
  published : s.events.toList <+: t.events.toList
  kept : forall key value, s.value? key = some value ->
    RemovedBetween s t key ∨ t.value? key = some value

/-!
# Composing histories
-/

theorem RemovedBetween.left {s t u : MemoryStore} {key : String}
    (htu : t.events.toList <+: u.events.toList) (h : RemovedBetween s t key) :
    RemovedBetween s u key := by
  rcases h with ⟨e, hmem, he⟩
  exact ⟨e, (htu.drop s.events.size).subset hmem, he⟩

theorem RemovedBetween.right {s t u : MemoryStore} {key : String}
    (hst : s.events.toList <+: t.events.toList) (h : RemovedBetween t u key) :
    RemovedBetween s u key := by
  rcases h with ⟨e, hmem, he⟩
  have hsize : s.events.size ≤ t.events.size := by
    simpa using hst.length_le
  have hdrop : u.events.toList.drop t.events.size <:+ u.events.toList.drop
      s.events.size :=
    List.drop_suffix_drop_left _ hsize
  exact ⟨e, hdrop.subset hmem, he⟩

theorem keepsValues_refl (s : MemoryStore) : KeepsValues s s :=
  { published := List.prefix_refl _
    kept := fun _ _ h => Or.inr h }

theorem KeepsValues.trans {s t u : MemoryStore}
    (hst : KeepsValues s t) (htu : KeepsValues t u) : KeepsValues s u where
  published := hst.published.trans htu.published
  kept := by
    intro key value hvalue
    rcases hst.kept key value hvalue with hremoved | hvalue'
    · exact Or.inl (hremoved.left htu.published)
    · rcases htu.kept key value hvalue' with hremoved | hvalue''
      · exact Or.inl (hremoved.right hst.published)
      · exact Or.inr hvalue''

theorem KeepsValues.removed_of_ne {s t : MemoryStore}
    {key value value' : String} (h : KeepsValues s t)
    (hs : s.value? key = some value) (ht : t.value? key = some value')
    (hne : value ≠ value') : RemovedBetween s t key := by
  rcases h.kept key value hs with hremoved | hkept
  · exact hremoved
  · rw [ht] at hkept
    exact absurd (Option.some.inj hkept).symm hne

/-!
# Single changes
-/

theorem keepsValues_record (s : MemoryStore) (c : Command) :
    KeepsValues s (s.record c) :=
  { published := List.prefix_refl _
    kept := fun _ _ h => Or.inr h }

theorem removedBetween_push {s t : MemoryStore} {e : Event}
    (hevents : t.events = s.events.push e)
    (hremoval : e.action = .delete ∨ e.action = .expire) :
    RemovedBetween s t e.key := by
  refine ⟨e, ?_, rfl, hremoval⟩
  rw [hevents, Array.toList_push, ← Array.length_toList, List.drop_left]
  exact List.mem_singleton_self e

theorem keepsValues_remove
    (s : MemoryStore) {action : Action}
    (haction : action = .delete ∨ action = .expire) (key : String) :
    KeepsValues s (s.remove action key) where
  published := by
    rw [events_remove, Array.toList_push]
    exact List.prefix_append _ _
  kept := by
    intro k value hvalue
    by_cases hk : key = k
    · subst hk
      exact Or.inl (removedBetween_push (events_remove s action key) haction)
    · apply Or.inr
      rw [value?, get?_remove, if_neg hk]
      exact hvalue

theorem keepsValues_insert (s : MemoryStore) (action : Action)
    (key value : String) (deadline : Option Nat)
    (hold : forall old, s.value? key = some old -> old = value) :
    KeepsValues s (s.insert action key value deadline) where
  published := by
    rw [events_insert, Array.toList_push]
    exact List.prefix_append _ _
  kept := by
    intro k v hv
    apply Or.inr
    rw [value?, get?_insert]
    by_cases hk : key = k
    · subst hk
      rw [if_pos rfl, hold v hv]
      rfl
    · rw [if_neg hk]
      exact hv

theorem keepsValues_purge (s : MemoryStore) (now : Nat) (key : String) :
    KeepsValues s (s.purge now key) := by
  rcases purge_cases s now key with ⟨hpurge, _⟩ | ⟨hpurge, _⟩
  · rw [hpurge]
    exact keepsValues_refl s
  · rw [hpurge]
    exact keepsValues_remove s (Or.inr rfl) key

theorem keepsValues_purgeAll (s : MemoryStore) (now : Nat)
    (select : String -> Bool) :
    KeepsValues s (s.purgeAll now select) := by
  unfold purgeAll
  induction s.lapsedKeys now select generalizing s with
  | nil =>
      exact keepsValues_refl s
  | cons key rest ih =>
      rw [List.foldl_cons]
      exact (keepsValues_purge s now key).trans (ih (s.purge now key))

/-!
# Operations
-/

theorem value?_purge_record (s : MemoryStore) (now : Nat) (c : Command)
    (key : String) :
    ((s.record c).purge now key).value? key =
      (s.live? now key).map (·.value) := by
  rw [value?, get?_purge, if_pos rfl, live?_record]

theorem keepsValues_create (s : MemoryStore) (now : Nat) (key value : String)
    (ttlMs : Nat) :
    KeepsValues s (s.write now (.createWithTtl key value ttlMs)).2 := by
  have hpurged := (keepsValues_record s (.createWithTtl key value ttlMs)).trans
    (keepsValues_purge (s.record (.createWithTtl key value ttlMs)) now key)
  rcases write_create_cases s now key value ttlMs with
    ⟨e, _, h⟩ | ⟨_, h⟩ | ⟨hlive, _, result, h⟩
  · rw [h]
    exact keepsValues_record s _
  · rw [h]
    exact hpurged
  · rw [h]
    refine hpurged.trans (keepsValues_insert _ _ _ _ _ ?_)
    intro old hold
    rw [value?_purge_record, hlive] at hold
    cases hold

theorem keepsValues_renew (s : MemoryStore) (now : Nat) (key owner : String)
    (ttlMs : Nat) :
    KeepsValues s (s.write now
      (.compareAndSwapWithTtl key owner owner ttlMs)).2 := by
  have hpurged :=
    (keepsValues_record s (.compareAndSwapWithTtl key owner owner ttlMs)).trans
    (keepsValues_purge
      (s.record (.compareAndSwapWithTtl key owner owner ttlMs)) now key)
  rcases write_renew_cases s now key owner ttlMs with
    ⟨e, _, h⟩ | ⟨_, e, h⟩ | ⟨hown, result, h⟩
  · rw [h]
    exact keepsValues_record s _
  · rw [h]
    exact hpurged
  · rw [h]
    refine hpurged.trans (keepsValues_insert _ _ _ _ _ ?_)
    intro old hold
    rw [value?_purge_record, hown] at hold
    exact (Option.some.inj hold).symm

theorem keepsValues_read (s : MemoryStore) (now : Nat) (key : String) :
    KeepsValues s (s.read now key).2 :=
  keepsValues_purge s now key

theorem keepsValues_scan (s : MemoryStore) (now : Nat) (r : ScanRequest) :
    KeepsValues s (s.scan now r).2 :=
  keepsValues_purgeAll s now _

theorem keepsValues_expireDue (s : MemoryStore) (now : Nat) :
    KeepsValues s (s.expireDue now).2 :=
  keepsValues_purgeAll s now _

theorem keepsValues_delete (s : MemoryStore) (now : Nat) (key : String) :
    KeepsValues s (s.delete now key).2 := by
  have hpurged := (keepsValues_record s (.delete key)).trans
    (keepsValues_purge (s.record (.delete key)) now key)
  unfold delete
  cases (Command.delete key).validate with
  | error e =>
      exact keepsValues_record s _
  | ok _ =>
      by_cases hsome : (((s.record (.delete key)).purge now key).get?
        key).isSome = true
      · simp only [hsome, if_true]
        exact hpurged.trans (keepsValues_remove _ (Or.inl rfl) key)
      · simp only [hsome]
        exact hpurged

end MemoryStore
end FairLease
