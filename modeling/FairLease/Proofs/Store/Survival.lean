import FairLease.Proofs.Store.History

/-!
# Survival of an entry

An entry that has not lapsed is left alone by all that is done to other keys,
and by removing what has lapsed. It is only its own owner who moves its
deadline, which never takes the entry away.
-/

namespace FairLease
namespace MemoryStore

/-!
# Stores that retain a key
-/

structure Retains (key : String) (s t : MemoryStore) : Prop where
  published : s.events.toList <+: t.events.toList
  kept : ¬ RemovedBetween s t key

theorem RemovedBetween.split {s t u : MemoryStore} {key : String}
    (htu : t.events.toList <+: u.events.toList) (h : RemovedBetween s u key) :
    RemovedBetween s t key ∨ RemovedBetween t u key := by
  rcases h with ⟨e, hmem, he⟩
  rcases htu with ⟨rest, hrest⟩
  rw [← hrest, List.drop_append, List.mem_append] at hmem
  rcases hmem with hmem | hmem
  · exact Or.inl ⟨e, hmem, he⟩
  · have hrest' : u.events.toList.drop t.events.size = rest := by
      rw [← hrest, ← Array.length_toList, List.drop_left]
    exact Or.inr ⟨e, by rw [hrest']; exact List.mem_of_mem_drop hmem, he⟩

theorem retains_of_events_eq {key : String} {s t : MemoryStore}
    (h : t.events = s.events) :
    Retains key s t where
  published := by
    rw [h]
  kept := by
    rintro ⟨e, hmem, _⟩
    rw [h, ← Array.length_toList, List.drop_length] at hmem
    cases hmem

theorem Retains.trans {key : String} {s t u : MemoryStore}
    (hst : Retains key s t) (htu : Retains key t u) : Retains key s u where
  published := hst.published.trans htu.published
  kept := by
    intro h
    rcases h.split htu.published with hremoved | hremoved
    · exact hst.kept hremoved
    · exact htu.kept hremoved

theorem retains_of_push {key : String} {s t : MemoryStore} {e : Event}
    (h : t.events = s.events.push e)
    (he : e.key = key -> e.action ≠ .delete ∧ e.action ≠ .expire) :
    Retains key s t where
  published := by
    rw [h, Array.toList_push]
    exact List.prefix_append _ _
  kept := by
    rintro ⟨e', hmem, hkey, hremoval⟩
    rw [h, Array.toList_push, ← Array.length_toList, List.drop_left,
      List.mem_singleton] at hmem
    subst hmem
    rcases hremoval with hremoval | hremoval
    · exact (he hkey).left hremoval
    · exact (he hkey).right hremoval

/-!
# Operations that spare a key

Those of others are about other keys, or find the key taken.
-/

/-- An entry of `s` that has not lapsed is in `t` too, and was there all the
time. -/
def Spares (now : Nat) (key : String) (s t : MemoryStore) : Prop :=
  forall e, s.live? now key = some e -> t.get? key = some e ∧ Retains key s t

section

variable {now : Nat} {key : String}

theorem spares_of_eq {s t : MemoryStore} (hget : t.get? key = s.get? key)
    (hevents : t.events = s.events) : Spares now key s t := by
  intro e he
  rw [hget]
  exact ⟨(live?_eq_some_iff.mp he).left, retains_of_events_eq hevents⟩

theorem spares_refl (s : MemoryStore) : Spares now key s s :=
  spares_of_eq rfl rfl

theorem Spares.trans {s t u : MemoryStore} (hst : Spares now key s t)
    (htu : Spares now key t u) :
    Spares now key s u := by
  intro e he
  rcases hst e he with ⟨ht, hretains⟩
  rcases htu e (live?_eq_some_iff.mpr ⟨ht,
    (live?_eq_some_iff.mp he).right⟩) with ⟨hu, hretains'⟩
  exact ⟨hu, hretains.trans hretains'⟩

theorem spares_insert_of_ne (s : MemoryStore) (action : Action) {k : String}
    (value : String) (deadline : Option Nat) (hk : k ≠ key) :
    Spares now key s (s.insert action k value deadline) := by
  intro e he
  refine ⟨?_, retains_of_push (events_insert s action k value deadline) fun h =>
    absurd h hk⟩
  rw [get?_insert, if_neg hk]
  exact (live?_eq_some_iff.mp he).left

theorem spares_remove_of_ne (s : MemoryStore) (action : Action) {k : String}
    (hk : k ≠ key) :
    Spares now key s (s.remove action k) := by
  intro e he
  refine ⟨?_, retains_of_push (events_remove s action k) fun h => absurd h hk⟩
  rw [get?_remove, if_neg hk]
  exact (live?_eq_some_iff.mp he).left

theorem spares_purge (s : MemoryStore) (k : String) :
    Spares now key s (s.purge now k) := by
  rcases purge_cases s now k with ⟨hpurge, _⟩ | ⟨hpurge, hlive⟩
  · rw [hpurge]
    exact spares_refl s
  · rw [hpurge]
    by_cases hk : k = key
    · intro e he
      rw [← hk, hlive] at he
      cases he
    · exact spares_remove_of_ne s .expire hk

theorem spares_purgeAll (s : MemoryStore) (select : String -> Bool) :
    Spares now key s (s.purgeAll now select) := by
  unfold purgeAll
  induction s.lapsedKeys now select generalizing s with
  | nil => exact spares_refl s
  | cons k rest ih => exact (spares_purge s k).trans (ih (s.purge now k))

theorem spares_purge_record (s : MemoryStore) (c : Command) (k : String) :
    Spares now key s ((s.record c).purge now k) := by
  have hrecord : Spares now key s (s.record c) := spares_of_eq rfl rfl
  exact hrecord.trans (spares_purge (s.record c) k)

theorem spares_scan (s : MemoryStore) (r : ScanRequest) :
    Spares now key s (s.scan now r).2 :=
  spares_purgeAll s _

theorem spares_read (s : MemoryStore) (k : String) :
    Spares now key s (s.read now k).2 :=
  spares_purge s k

theorem spares_expireDue (s : MemoryStore) :
    Spares now key s (s.expireDue now).2 :=
  spares_purgeAll s _

theorem apply_cases {s t : MemoryStore} {c : Command}
    (h : s.apply now c = .ok t) :
    (exists action value deadline, t = s.insert action c.key value deadline) ∨
      t = s.remove .delete c.key := by
  cases c with
  | set | setWithTtl =>
      cases h
      exact Or.inl ⟨_, _, _, rfl⟩
  | createWithTtl =>
      simp only [apply] at h
      split at h
      · cases h
      · cases h
        exact Or.inl ⟨_, _, _, rfl⟩
  | compareAndSwap | compareAndSwapWithTtl =>
      simp only [apply] at h
      split at h
      · cases h
        exact Or.inl ⟨_, _, _, rfl⟩
      · cases h
  | delete =>
      simp only [apply] at h
      split at h
      · cases h
        exact Or.inr rfl
      · cases h

theorem write_cases (s : MemoryStore) (now : Nat) (c : Command) :
    (exists e, s.write now c = (.error e, s.record c)) ∨
      (exists e, s.write now c = (.error e, (s.record c).purge now c.key)) ∨
      (c.validate = .ok () ∧
        exists w t, ((s.record c).purge now c.key).apply now c = .ok t ∧
        s.write now c = (.ok w, t)) := by
  cases hvalid : c.validate with
  | error e => exact Or.inl ⟨e, by simp [write, hvalid]⟩
  | ok =>
      cases happly : ((s.record c).purge now c.key).apply now c with
      | error e => exact Or.inr (Or.inl ⟨e, by simp [write, hvalid, happly]⟩)
      | ok t => exact Or.inr (Or.inr ⟨rfl, _, t, rfl, by simp [write, hvalid, happly]; rfl⟩)

/-- A write spares a key that it is not about, and every key if it is
refused. -/
theorem spares_write (s : MemoryStore) (c : Command)
    (h : c.key ≠ key ∨ exists e, (s.write now c).1 = .error e) :
    Spares now key s (s.write now c).2 := by
  rcases write_cases s now c with
    ⟨e, hwrite⟩ | ⟨e, hwrite⟩ | ⟨_, w, t, happly, hwrite⟩
  · rw [hwrite]
    exact spares_of_eq rfl rfl
  · rw [hwrite]
    exact spares_purge_record s c c.key
  · rw [hwrite] at h ⊢
    rcases h with hkey | ⟨_, hrefused⟩
    · refine (spares_purge_record s c c.key).trans ?_
      rcases apply_cases happly with ⟨action, value, deadline, rfl⟩ | rfl
      · exact spares_insert_of_ne _ action value deadline hkey
      · exact spares_remove_of_ne _ .delete hkey
    · cases hrefused

theorem spares_delete (s : MemoryStore) {k : String} (hk : k ≠ key) :
    Spares now key s (s.delete now k).2 := by
  unfold delete
  cases (Command.delete k).validate with
  | error e => exact spares_of_eq rfl rfl
  | ok =>
      have hpurged : Spares now key s ((s.record (.delete k)).purge now k) :=
        spares_purge_record s (.delete k) k
      by_cases hsome : (((s.record (.delete k)).purge now k).get? k).isSome =
        true
      · simp only [hsome, if_true]
        exact hpurged.trans (spares_remove_of_ne _ .delete hk)
      · simp only [hsome]
        exact hpurged

theorem spares_create (s : MemoryStore) (k value : String) (ttlMs : Nat) :
    Spares now key s (s.write now (.createWithTtl k value ttlMs)).2 := by
  by_cases hk : k = key
  · rcases write_create_cases s now k value ttlMs with
      ⟨_, _, h⟩ | ⟨_, h⟩ | ⟨hfree, _⟩
    · exact spares_write s _ (Or.inr ⟨_, by rw [h]⟩)
    · exact spares_write s _ (Or.inr ⟨_, by rw [h]⟩)
    · intro e he
      rw [← hk, hfree] at he
      cases he
  · exact spares_write s _ (Or.inl hk)

end

/-!
# Leased keys
-/

def IsLeased (s : MemoryStore) (key value : String) (deadline : Nat) : Prop :=
  exists e, s.get? key = some e ∧ e.value = value ∧ e.deadline = some deadline

section

variable {s t : MemoryStore} {now deadline ttlMs : Nat} {key value : String}

theorem IsLeased.live? (h : s.IsLeased key value deadline)
    (hnow : now < deadline) :
    exists e, s.live? now key = some e ∧ e.value = value := by
  rcases h with ⟨e, hget, hvalue, hdeadline⟩
  refine ⟨e, live?_eq_some_iff.mpr ⟨hget, ?_⟩, hvalue⟩
  simp only [Entry.hasLapsed, hdeadline, decide_eq_false_iff_not]
  omega

theorem Spares.isLeased (hst : Spares now key s t)
    (h : s.IsLeased key value deadline) (hnow : now < deadline) :
    t.IsLeased key value deadline ∧ Retains key s t := by
  have hentry := h
  rcases hentry with ⟨e, hget, hvalue, hdeadline⟩
  rcases h.live? hnow with ⟨e', hlive, _⟩
  have hsame := (live?_eq_some_iff.mp hlive).left
  rw [hget] at hsame
  cases hsame
  rcases hst e hlive with ⟨hget', hretains⟩
  exact ⟨⟨e, hget', hvalue, hdeadline⟩, hretains⟩

theorem isLeased_insert (s : MemoryStore) (action : Action) (key value : String)
    (deadline : Nat) :
    (s.insert action key value (some deadline)).IsLeased key value deadline :=
  ⟨_, by rw [get?_insert, if_pos rfl], rfl, rfl⟩

theorem isLeased_create {w : WriteResult}
    (h : (s.write now (.createWithTtl key value ttlMs)).1 = .ok w) :
    (s.write now (.createWithTtl key value ttlMs)).2.IsLeased key value
      (now + ttlMs * 1000000) := by
  rcases write_create_cases s now key value ttlMs with
    ⟨_, _, hwrite⟩ | ⟨_, hwrite⟩ | ⟨_, _, _, hwrite⟩
  · rw [hwrite] at h
    cases h
  · rw [hwrite] at h
    cases h
  · rw [hwrite]
    exact isLeased_insert _ .create key value _

/-- The deadline is moved by the owner while it has not passed. -/
theorem isLeased_renew (h : s.IsLeased key value deadline)
    (hnow : now < deadline)
    (hvalid : (Command.compareAndSwapWithTtl key value value ttlMs).validate =
      .ok ()) :
    exists w, (s.write now (.compareAndSwapWithTtl key value value ttlMs)).1 =
      .ok w ∧
      (s.write now (.compareAndSwapWithTtl key value value ttlMs)).2.IsLeased
        key value
        (now + ttlMs * 1000000) ∧
      Retains key s (s.write now
        (.compareAndSwapWithTtl key value value ttlMs)).2 := by
  rcases h.live? hnow with ⟨e, hlive, hvalue⟩
  rcases write_renew_cases s now key value ttlMs with
    ⟨_, hinvalid, _⟩ | ⟨hother, _⟩ | ⟨_, w, hwrite⟩
  · rw [hvalid] at hinvalid
    cases hinvalid
  · rw [hlive, Option.map_some, hvalue] at hother
    exact absurd rfl hother
  · rw [hwrite]
    refine ⟨w, rfl, isLeased_insert _ .compareAndSwap key value _, ?_⟩
    have hretains :=
      (spares_purge_record s (.compareAndSwapWithTtl key value value ttlMs) key
      e hlive).right
    exact hretains.trans
      (retains_of_push (events_insert _ _ _ _ _) fun _ => by simp)

theorem spares_renew_of_ne {owner : String} (h : s.IsLeased key value deadline)
    (hnow : now < deadline) {k : String} (hother : k ≠ key ∨ owner ≠ value) :
    Spares now key s (s.write now
      (.compareAndSwapWithTtl k owner owner ttlMs)).2 := by
  by_cases hk : k = key
  · subst hk
    rcases h.live? hnow with ⟨e, hlive, hvalue⟩
    rcases write_renew_cases s now k owner ttlMs with
      ⟨e', _, h⟩ | ⟨_, e', h⟩ | ⟨hown, _⟩
    · exact spares_write s _ (Or.inr ⟨e', by rw [h]⟩)
    · exact spares_write s _ (Or.inr ⟨e', by rw [h]⟩)
    · rw [hlive, Option.map_some, hvalue] at hown
      rcases hother with hne | hne
      · exact absurd rfl hne
      · exact absurd (Option.some.inj hown).symm hne
  · exact spares_write s _ (Or.inl hk)

theorem validate_of_write {c : Command} {w : WriteResult}
    (h : (s.write now c).1 = .ok w) :
    c.validate = .ok () := by
  rcases write_cases s now c with ⟨e, hwrite⟩ | ⟨e, hwrite⟩ | ⟨hvalid, _⟩
  · rw [hwrite] at h
    cases h
  · rw [hwrite] at h
    cases h
  · exact hvalid

theorem ttlMs_ne_zero_of_renew {owner : String}
    (h : (Command.compareAndSwapWithTtl key owner owner ttlMs).validate =
      .ok ()) : ttlMs ≠ 0 := by
  rintro rfl
  simp only [Command.validate] at h
  cases hkey : Command.checkKey key with
  | error e => simp [hkey, bind, Except.bind] at h
  | ok =>
      cases hvalue : Command.checkValue owner with
      | error e => simp [hkey, hvalue, bind, Except.bind] at h
      | ok => simp [hkey, hvalue, Command.checkTtl, bind, Except.bind] at h

theorem validate_renew
    (h : (Command.createWithTtl key value ttlMs).validate = .ok ()) :
    (Command.compareAndSwapWithTtl key value value ttlMs).validate =
      .ok () := by
  simp only [Command.validate] at h ⊢
  cases hkey : Command.checkKey key with
  | error e => simp [hkey, bind, Except.bind] at h
  | ok =>
      cases hvalue : Command.checkValue value with
      | error e => simp [hkey, hvalue, bind, Except.bind] at h
      | ok => simpa [hkey, hvalue, bind, Except.bind] using h

theorem live?_renew_ne_none {owner k : String}
    (hlive : s.live? now key ≠ none) :
    (s.write now (.compareAndSwapWithTtl k owner owner ttlMs)).2.live? now
      key ≠ none := by
  rcases write_renew_cases s now k owner ttlMs with
    ⟨_, _, h⟩ | ⟨_, _, h⟩ | ⟨_, w, h⟩
  · rw [h]
    exact hlive
  · rw [h, live?_purge]
    exact hlive
  · by_cases hk : k = key
    · have hvalid := validate_of_write (s := s) (by rw [h])
      have httl := ttlMs_ne_zero_of_renew hvalid
      have hleased :=
        isLeased_insert ((s.record
          (.compareAndSwapWithTtl k owner owner ttlMs)).purge
        now k) .compareAndSwap k owner (now + ttlMs * 1000000)
      have hlasting : now < now + ttlMs * 1000000 := by omega
      rcases hleased.live? hlasting with ⟨e, he, _⟩
      rw [h, ← hk]
      exact Option.ne_none_iff_exists'.mpr ⟨e, he⟩
    · rcases Option.ne_none_iff_exists'.mp hlive with ⟨e, he⟩
      have hspared :=
        spares_write s (.compareAndSwapWithTtl k owner owner ttlMs)
          (Or.inl hk) e he
      exact Option.ne_none_iff_exists'.mpr ⟨e, live?_eq_some_iff.mpr
        ⟨hspared.left, (live?_eq_some_iff.mp he).right⟩⟩

end

end MemoryStore
end FairLease
