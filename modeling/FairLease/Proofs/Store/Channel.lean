import FairLease.Store.Watcher

/-!
# The channel of a store

A watcher is served by a channel that retains a fixed number of events. One that
is further behind is told so once and goes on at the oldest retained event. A
call for the next event asks the channel until it is given an event under its
namespace or learns that the channel is closed, or there is nothing for now.
-/

namespace FairLease

inductive Receipt where
  | event (e : Event)
  /-- So many events have been given up. -/
  | lagged (missed : Nat)
  | nothing
  | closed
  deriving DecidableEq, Repr

namespace Watcher

def receive (isOpen : Bool) (events : Array Event) (w : Watcher) :
    Receipt × Watcher :=
  if w.position + watchCapacity < events.size then
    (.lagged (events.size - watchCapacity - w.position),
      { w with position := events.size - watchCapacity })
  else
    match events[w.position]? with
    | some e => (.event e, { w with position := w.position + 1 })
    | none => (if isOpen then .nothing else .closed, w)

/-- What a call for the next event makes of it: an answer, or none as long as it
goes on. -/
def attend (isOpen : Bool) (events : Array Event) (w : Watcher) :
    Option (Except StoreError Event) × Watcher :=
  match w.receive isOpen events with
  | (.event e, w) =>
      (if Text.startsWith e.key w.lead then some (.ok e) else none, w)
  | (.lagged _, w) => (none, w)
  | (.nothing, w) => (none, w)
  | (.closed, w) => (some (.error .watchClosed), w)

def listen (isOpen : Bool) (events : Array Event) :
    Nat -> Watcher -> Option (Except StoreError Event) × Watcher
  | 0, w => (none, w)
  | n + 1, w =>
      match w.attend isOpen events with
      | (some answer, w) => (some answer, w)
      | (none, w) => w.listen isOpen events n

/-!
# Rounds
-/

section

variable {isOpen : Bool} {events : Array Event} {w : Watcher}

theorem attend_cases (isOpen : Bool) (events : Array Event) (w : Watcher) :
    (w.position + watchCapacity < events.size ∧
        w.attend isOpen events = (none, { w with position := events.size - watchCapacity })) ∨
      (events.size ≤ w.position + watchCapacity ∧
        exists e, events[w.position]? = some e ∧
        w.attend isOpen events =
          (if Text.startsWith e.key w.lead then some (.ok e) else none,
            { w with position := w.position + 1 })) ∨
      (events.size ≤ w.position ∧
        w.attend isOpen events =
          (if isOpen then none else some (.error .watchClosed), w)) := by
  by_cases hlag : w.position + watchCapacity < events.size
  · exact Or.inl ⟨hlag, by simp [attend, receive, hlag]⟩
  · cases he : events[w.position]? with
    | some e =>
        exact Or.inr (Or.inl ⟨Nat.le_of_not_lt hlag, e, rfl,
          by simp [attend, receive, hlag, he]⟩)
    | none =>
        refine Or.inr (Or.inr ⟨Array.getElem?_eq_none_iff.mp he, ?_⟩)
        cases isOpen with
        | true => simp [attend, receive, hlag, he]
        | false => simp [attend, receive, hlag, he]

theorem lead_attend (isOpen : Bool) (events : Array Event) (w : Watcher) :
    (w.attend isOpen events).2.lead = w.lead := by
  rcases attend_cases isOpen events w with
    ⟨_, hattend⟩ | ⟨_, e, _, hattend⟩ | ⟨_, hattend⟩
  · rw [hattend]
  · rw [hattend]
  · rw [hattend]

theorem position_le_attend (isOpen : Bool) (events : Array Event)
    (w : Watcher) :
    w.position ≤ (w.attend isOpen events).2.position := by
  rcases attend_cases isOpen events w with
    ⟨hlag, hattend⟩ | ⟨_, e, _, hattend⟩ | ⟨_, hattend⟩
  · rw [hattend]
    exact Nat.le_sub_of_add_le (Nat.le_of_lt hlag)
  · rw [hattend]
    exact Nat.le_succ _
  · simp [hattend]

/-!
# A call as a whole

The next event is the first one under the namespace that is retained, and the
channel has given out no other when a call returns it.
-/

/-- The retained events under the namespace, which the watcher has still to be
given. -/
def due (events : Array Event) (w : Watcher) : List Event :=
  (events.toList.drop (w.resume events.size)).filter
    (fun e => Text.startsWith e.key w.lead)

theorem firstMatch_cases (lead : String) (es : List Event) :
    (exists e k, firstMatch lead es = (some e, k + 1) ∧
      Text.startsWith e.key lead = true ∧
        es.filter (fun e => Text.startsWith e.key lead) =
          e :: (es.drop (k + 1)).filter (fun e => Text.startsWith e.key lead)) ∨
      (firstMatch lead es = (none, es.length) ∧
        es.filter (fun e => Text.startsWith e.key lead) = []) := by
  induction es with
  | nil => exact Or.inr ⟨rfl, rfl⟩
  | cons e rest ih =>
      cases hmatch : Text.startsWith e.key lead with
      | true => exact Or.inl ⟨e, 0, by simp [firstMatch, hmatch], hmatch, by simp [hmatch]⟩
      | false =>
          rcases ih with ⟨found, k, hfound, hlead, hfilter⟩ | ⟨hnone, hfilter⟩
          · exact Or.inl ⟨found, k + 1, by simp [firstMatch, hmatch, hfound],
              hlead, by simp [hmatch, hfilter]⟩
          · exact Or.inr ⟨by simp [firstMatch, hmatch, hnone],
              by simp [hmatch, hfilter]⟩

theorem resume_of_le {n : Nat} (h : events.size ≤ n + watchCapacity)
    (lead : String) :
    resume ⟨lead, n⟩ events.size = n :=
  Nat.max_eq_left (Nat.sub_le_iff_le_add.mpr h)

theorem size_le_resume (n : Nat) (w : Watcher) :
    n ≤ w.resume n + watchCapacity :=
  Nat.sub_le_iff_le_add.mp (Nat.le_max_right _ _)

theorem next_eq (events : Array Event) (w : Watcher) :
    w.next events =
      ((firstMatch w.lead (events.toList.drop (w.resume events.size))).1,
        { w with position := w.resume events.size +
          (firstMatch w.lead (events.toList.drop (w.resume events.size))).2
            }) := by
  have hretained : (events.extract (w.resume events.size) events.size).toList =
      events.toList.drop (w.resume events.size) := by
    rw [Array.toList_extract, List.extract_eq_take_drop]
    exact List.take_of_length_le (by simp)
  simp only [next, hretained]

theorem lead_ask (isOpen : Bool) (events : Array Event) (w : Watcher) :
    (w.ask isOpen events).2.lead = w.lead := by
  simp only [ask, next_eq]
  cases (firstMatch w.lead (events.toList.drop (w.resume events.size))).1 with
  | none => rfl
  | some e => rfl

theorem ask_cases (isOpen : Bool) (events : Array Event) (w : Watcher) :
    (exists e rest v, w.due events = e :: rest ∧
      w.ask isOpen events = (some (.ok e), v) ∧
        v.due events = rest) ∨
      (w.due events = [] ∧ exists v, v.due events = [] ∧
        events.size ≤ v.position ∧
        w.ask isOpen events =
          (if isOpen then none else some (.error .watchClosed), v)) := by
  have hresume {k : Nat} :
      resume ⟨w.lead, w.resume events.size + k⟩ events.size =
      w.resume events.size + k := by
    apply resume_of_le
    have hle := size_le_resume events.size w
    omega
  rcases firstMatch_cases w.lead
    (events.toList.drop (w.resume events.size)) with
    ⟨e, k, hfound, _, hfilter⟩ | ⟨hnone, hfilter⟩
  · refine Or.inl ⟨e, _, ⟨w.lead, w.resume events.size + (k + 1)⟩,
      hfilter, ?_, ?_⟩
    · simp [ask, next_eq, hfound]
    · rw [due, hresume, List.drop_drop]
  · refine Or.inr ⟨hfilter, ⟨w.lead, w.resume events.size +
      (events.toList.drop (w.resume events.size)).length⟩, ?_, ?_, ?_⟩
    · rw [due, hresume, ← List.drop_drop, List.drop_length]
      rfl
    · simp
      omega
    · simp [ask, next_eq, hnone]

/-!
# A call round by round
-/

theorem ask_of_lag (h : w.position + watchCapacity < events.size) :
    w.ask isOpen events = ask isOpen events { w with position := events.size - watchCapacity } := by
  have hresume : w.resume events.size = events.size - watchCapacity :=
    Nat.max_eq_right (Nat.le_sub_of_add_le (Nat.le_of_lt h))
  have hsame : resume { w with position := events.size - watchCapacity } events.size =
      events.size - watchCapacity := Nat.max_self _
  simp only [ask, next_eq, hresume, hsame]

theorem ask_of_event (h : events.size ≤ w.position + watchCapacity) {e : Event}
    (he : events[w.position]? = some e) :
    w.ask isOpen events =
      if Text.startsWith e.key w.lead then (some (.ok e), { w with position := w.position + 1 })
      else ask isOpen events { w with position := w.position + 1 } := by
  rcases Array.getElem?_eq_some_iff.mp he with ⟨hlt, rfl⟩
  have hdrop : events.toList.drop w.position =
      events[w.position] :: events.toList.drop (w.position + 1) :=
    List.drop_eq_getElem_cons (by simpa using hlt)
  have hresume : w.resume events.size = w.position := resume_of_le h w.lead
  have hnext : resume { w with position := w.position + 1 } events.size = w.position + 1 :=
    resume_of_le (by omega) w.lead
  cases hmatch : Text.startsWith events[w.position].key w.lead with
  | true => simp [ask, next_eq, hresume, hdrop, firstMatch, hmatch]
  | false =>
      simp only [ask, next_eq, hresume, hnext, hdrop, firstMatch, hmatch,
        Bool.false_eq_true, if_false]
      rw [Nat.add_assoc, Nat.add_comm 1]

theorem ask_of_end (h : events.size ≤ w.position) :
    w.ask isOpen events =
      (if isOpen then none else some (.error .watchClosed), w) := by
  have hresume : w.resume events.size = w.position :=
    resume_of_le (Nat.le_trans h (Nat.le_add_right _ _)) w.lead
  have hdrop : events.toList.drop w.position = [] :=
    List.drop_eq_nil_of_le (by simpa using h)
  simp only [ask, next_eq, hresume, hdrop, firstMatch]
  rfl

theorem listen_of_end (h : events.size ≤ w.position) (n : Nat) :
    w.listen true events n = (none, w) := by
  induction n with
  | zero => rfl
  | succ n ih =>
      have hattend : w.attend true events = (none, w) := by
        rcases attend_cases true events w with
          ⟨hlag, _⟩ | ⟨_, e, he, _⟩ | ⟨_, hattend⟩
        · exact absurd h (Nat.not_le.mpr
            (Nat.lt_of_le_of_lt (Nat.le_add_right _ _) hlag))
        · rw [Array.getElem?_eq_none h] at he
          cases he
        · exact hattend
      simp only [listen, hattend, ih]

/-- A call that finds the store as it is all the time asks the channel once more
at most than there are events ahead. -/
theorem listen_eq_ask (isOpen : Bool) (events : Array Event) {n : Nat}
    {w : Watcher} (h : events.size - w.position < n) :
    w.listen isOpen events n = w.ask isOpen events := by
  induction n generalizing w with
  | zero => cases h
  | succ n ih =>
      rcases attend_cases isOpen events w with
        ⟨hlag, hattend⟩ | ⟨hle, e, he, hattend⟩ | ⟨hend, hattend⟩
      · rw [listen, hattend, ask_of_lag hlag]
        have hless : events.size - (events.size - watchCapacity) < n := by omega
        exact ih hless
      · have hlt := (Array.getElem?_eq_some_iff.mp he).1
        rw [listen, hattend, ask_of_event hle he]
        cases Text.startsWith e.key w.lead with
        | true => rfl
        | false =>
            have hless : events.size - (w.position + 1) < n := by omega
            simp only [Bool.false_eq_true, if_false]
            exact ih hless
      · rw [listen, hattend, ask_of_end hend]
        cases isOpen with
        | true => exact listen_of_end hend n
        | false => rfl

end

end Watcher
end FairLease
