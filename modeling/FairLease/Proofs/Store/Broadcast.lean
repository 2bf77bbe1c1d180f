import FairLease.Proofs.Run
import FairLease.Proofs.Store.Change
import FairLease.Proofs.Store.Channel

/-!
# A store and its watchers

A store is used by its clients while any number of watchers ask for events, one
call at a time. A call goes on round by round or as far as it gets at once, and
may be dropped before it has returned anything.
-/

namespace FairLease

namespace MemoryStore

theorem events_perform (s : MemoryStore) (now : Nat) (op : Operation) :
    s.events.toList <+: (s.perform now op).events.toList := by
  refine perform_keeps (P := fun t => s.events.toList <+: t.events.toList) ?_
    (List.prefix_refl _) op
  intro t u htu ht
  cases htu with
  | record c => exact ht
  | assign =>
      rw [events_assign, Array.toList_push]
      exact ht.trans (List.prefix_append _ _)

end MemoryStore

structure Listener where
  watcher : Watcher
  isAsking : Bool
  answers : List (Except StoreError Event)

namespace Listener

def goOn (f : Watcher -> Option (Except StoreError Event) × Watcher)
    (l : Listener) : Listener :=
  if l.isAsking then
    match f l.watcher with
    | (some answer, w) => ⟨w, false, l.answers ++ [answer]⟩
    | (none, w) => { l with watcher := w }
  else l

theorem goOn_cases (f : Watcher -> Option (Except StoreError Event) × Watcher)
    (l : Listener) :
    l.goOn f = l ∨
      ((l.goOn f).watcher = (f l.watcher).2 ∧
        (l.goOn f).answers = l.answers ++ (f l.watcher).1.toList) := by
  unfold goOn
  cases l.isAsking with
  | false => exact Or.inl rfl
  | true =>
      refine Or.inr ?_
      rcases f l.watcher with ⟨_ | answer, w⟩
      · exact ⟨rfl, (List.append_nil _).symm⟩
      · exact ⟨rfl, rfl⟩

end Listener

/-- A store with its watchers. It may go away, but its watchers stay. -/
structure Broadcast where
  store : MemoryStore
  isOpen : Bool
  listeners : Array Listener

namespace Broadcast

inductive Step where
  | operate (c : Operation.Call)
  /-- An event is published without a change. To the watchers an operation of
  which they see one event after the other looks like this, too. -/
  | inject (e : Event)
  | watch (lead : String)
  | ask (j : Nat)
  | attend (j : Nat)
  /-- The call under way goes on until it returns or there is nothing for it. -/
  | poll (j : Nat)
  | drop (j : Nat)
  | close

def change (s : Broadcast) (j : Nat) (f : Listener -> Listener) : Broadcast :=
  { s with listeners := s.listeners.modify j f }

def step (s : Broadcast) : Step -> Broadcast
  | .operate c => if s.isOpen then { s with store := s.store.perform c.time c.operation } else s
  | .inject e => if s.isOpen then { s with store := s.store.publish e } else s
  | .watch lead =>
      if s.isOpen then
        { s with listeners := s.listeners.push ⟨.subscribe s.store lead, false, []⟩ }
      else s
  | .ask j => s.change j (fun l => { l with isAsking := true })
  | .attend j => s.change j (·.goOn (·.attend s.isOpen s.store.events))
  | .poll j => s.change j (·.goOn (·.ask s.isOpen s.store.events))
  | .drop j => s.change j (fun l => { l with isAsking := false })
  | .close => { s with isOpen := false }

def empty : Broadcast :=
  ⟨.empty, true, #[]⟩

def after (steps : List Step) (n : Nat) : Broadcast :=
  stateAt step empty steps n

def events (s : Broadcast) : List Event :=
  s.store.events.toList

/-!
# Single steps
-/

theorem getElem?_change (s : Broadcast) (i : Nat) (f : Listener -> Listener)
    (j : Nat) :
    (s.change i f).listeners[j]? = if i = j then s.listeners[j]?.map f
      else s.listeners[j]? := by
  simp [change, Array.getElem?_modify]

theorem listener_step (s : Broadcast) (step : Step) {j : Nat} {l : Listener}
    (hl : s.listeners[j]? = some l) :
    exists l', (s.step step).listeners[j]? = some l' ∧
      ((l'.watcher = l.watcher ∧ l'.answers = l.answers) ∨
        ((s.step step).store = s.store ∧ (s.step step).isOpen = s.isOpen ∧
          exists f, (f = Watcher.attend s.isOpen s.store.events ∨
              f = Watcher.ask s.isOpen s.store.events) ∧
            l'.watcher = (f l.watcher).2 ∧
              l'.answers = l.answers ++ (f l.watcher).1.toList)) := by
  have hgoOn (i : Nat) (f : Watcher ->
      Option (Except StoreError Event) × Watcher) :
      exists l', (s.change i (·.goOn f)).listeners[j]? = some l' ∧
        ((l'.watcher = l.watcher ∧ l'.answers = l.answers) ∨
          (l'.watcher = (f l.watcher).2 ∧
            l'.answers = l.answers ++ (f l.watcher).1.toList)) := by
    rw [getElem?_change, hl]
    by_cases hij : i = j
    · rw [if_pos hij]
      refine ⟨l.goOn f, rfl, ?_⟩
      rcases l.goOn_cases f with hsame | hnext
      · rw [hsame]
        exact Or.inl ⟨rfl, rfl⟩
      · exact Or.inr hnext
    · rw [if_neg hij]
      exact ⟨l, rfl, Or.inl ⟨rfl, rfl⟩⟩
  cases step with
  | operate c =>
      refine ⟨l, ?_, Or.inl ⟨rfl, rfl⟩⟩
      cases hopen : s.isOpen <;> simp [Broadcast.step, hopen, hl]
  | inject e =>
      refine ⟨l, ?_, Or.inl ⟨rfl, rfl⟩⟩
      cases hopen : s.isOpen <;> simp [Broadcast.step, hopen, hl]
  | watch lead =>
      refine ⟨l, ?_, Or.inl ⟨rfl, rfl⟩⟩
      have hlt := (Array.getElem?_eq_some_iff.mp hl).1
      cases hopen : s.isOpen <;>
        simp [Broadcast.step, hopen, hl, Array.getElem?_push, Nat.ne_of_lt hlt]
  | ask i =>
      simp only [Broadcast.step, getElem?_change, hl]
      by_cases hij : i = j <;> simp [hij]
  | drop i =>
      simp only [Broadcast.step, getElem?_change, hl]
      by_cases hij : i = j <;> simp [hij]
  | close => exact ⟨l, hl, Or.inl ⟨rfl, rfl⟩⟩
  | attend i =>
      rcases hgoOn i (·.attend s.isOpen s.store.events) with
        ⟨l', hl', hsame | hnext⟩
      · exact ⟨l', hl', Or.inl hsame⟩
      · exact ⟨l', hl', Or.inr ⟨rfl, rfl, _, Or.inl rfl, hnext⟩⟩
  | poll i =>
      rcases hgoOn i (·.ask s.isOpen s.store.events) with
        ⟨l', hl', hsame | hnext⟩
      · exact ⟨l', hl', Or.inl hsame⟩
      · exact ⟨l', hl', Or.inr ⟨rfl, rfl, _, Or.inr rfl, hnext⟩⟩

theorem events_step (s : Broadcast) (step : Step) :
    (s.isOpen = true ∧ s.events <+: (s.step step).events) ∨
      ((s.step step).events = s.events ∧
        (s.isOpen = false -> (s.step step).isOpen = false)) := by
  cases hopen : s.isOpen with
  | false => exact Or.inr (by cases step <;> simp [Broadcast.step, change, events, hopen])
  | true =>
      refine Or.inl ⟨rfl, ?_⟩
      cases step with
      | operate c =>
          simp only [Broadcast.step, hopen, if_true]
          exact s.store.events_perform c.time c.operation
      | inject e =>
          simp only [Broadcast.step, hopen, if_true, events,
            MemoryStore.publish, Array.toList_push]
          exact List.prefix_append _ _
      | watch lead =>
          simp only [Broadcast.step, hopen, if_true]
          exact List.prefix_refl _
      | ask | attend | poll | drop | close => exact List.prefix_refl _

/-!
# Runs
-/

theorem after_succ {steps : List Step} {n : Nat} {step : Step}
    (h : steps[n]? = some step) :
    after steps (n + 1) = (after steps n).step step :=
  stateAt_succ h

theorem events_mono (steps : List Step) {m n : Nat} (hmn : m ≤ n) :
    (after steps m).events <+: (after steps n).events := by
  refine stateAt_related (R := fun s t : Broadcast => s.events <+: t.events)
    (fun s => List.prefix_refl _) List.IsPrefix.trans ?_ empty steps hmn
  intro s step
  rcases s.events_step step with ⟨_, hevents⟩ | ⟨hevents, _⟩
  · exact hevents
  · simp [hevents]

/-!
# Calls without a break
-/

def asks (j k : Nat) : List Step :=
  (List.replicate k [.ask j, .poll j]).flatten

theorem asks_succ (j k : Nat) :
    asks j (k + 1) = .ask j :: .poll j :: asks j k := rfl

theorem listener_ask_poll (s : Broadcast) {j : Nat} {l : Listener}
    (hl : s.listeners[j]? = some l) :
    exists l', ((s.step (.ask j)).step (.poll j)).listeners[j]? = some l' ∧
      l'.watcher = (l.watcher.ask s.isOpen s.store.events).2 ∧
      l'.answers = l.answers ++
        (l.watcher.ask s.isOpen s.store.events).1.toList := by
  refine ⟨_, by simp only [step, getElem?_change, hl, if_true,
    Option.map_some]; rfl, ?_⟩
  simp only [Listener.goOn, if_true, change]
  rcases l.watcher.ask s.isOpen s.store.events with ⟨_ | answer, w⟩
  · exact ⟨rfl, (List.append_nil _).symm⟩
  · exact ⟨rfl, rfl⟩

/-- The calls return what is due, and then they wait or are told that the store
is gone. -/
theorem answers_asks (k : Nat) (s : Broadcast) {j : Nat} {l : Listener}
    (hl : s.listeners[j]? = some l) :
    exists l', ((asks j k).foldl step s).listeners[j]? = some l' ∧
      l'.answers = l.answers ++
        ((l.watcher.due s.store.events).take k).map .ok ++
        if s.isOpen then []
        else List.replicate (k - (l.watcher.due s.store.events).length)
          (.error .watchClosed) := by
  induction k generalizing s l with
  | zero => exact ⟨l, hl, by simp⟩
  | succ k ih =>
      rw [asks_succ]
      rcases s.listener_ask_poll hl with ⟨l₁, hl₁, hwatcher, hanswers⟩
      rcases ih ((s.step (.ask j)).step (.poll j)) hl₁ with ⟨l', hl', hrest⟩
      refine ⟨l', hl', ?_⟩
      have hstore : ((s.step (.ask j)).step (.poll j)).store = s.store := rfl
      have hopen : ((s.step (.ask j)).step (.poll j)).isOpen = s.isOpen := rfl
      rw [hrest, hanswers, hwatcher, hstore, hopen]
      rcases l.watcher.ask_cases s.isOpen s.store.events with
        ⟨e, rest, v, hdue, hask, hnext⟩ | ⟨hdue, v, hnext, _, hask⟩
      · rw [hask, hdue, hnext]
        simp
      · rw [hask, hdue, hnext]
        cases s.isOpen with
        | true => simp
        | false => simp [List.replicate_succ]

end Broadcast
end FairLease
