import Mathlib.Data.List.Basic
import FairLease.Proofs.Store.Change

/-!
# The events of the in-memory store as its journal

Replaying the published events on an empty map gives the stored values, and the
revisions of an entry say at which events its key was created and changed last.
A single change adds one event that is due, so that this holds after any number
of them.
-/

namespace FairLease

/-!
# Replaying events

An event gives its key a value or takes the key away.
-/

def Event.applyTo (m : Table String) (e : Event) : Table String :=
  match e.action.isRemoval, e.value with
  | false, some value => m.insert e.key value
  | _, _ => m.erase e.key

def replay (events : List Event) : Table String :=
  events.foldl Event.applyTo ∅

def IsLastEvent (events : List Event) (key : String) (i : Nat) : Prop :=
  events[i]?.map (·.key) = some key ∧ forall j, i < j ->
    events[j]?.map (·.key) ≠ some key

def AppearsAt (events : List Event) (key : String) (i : Nat) : Prop :=
  (replay (events.take i))[key]? = none ∧
    (replay (events.take (i + 1)))[key]? ≠ none

structure IsThereSince (events : List Event) (key : String) (i : Nat) :
    Prop where
  known : i < events.length
  appears : AppearsAt events key i
  stays : forall j, i < j -> (replay (events.take j))[key]? ≠ none

theorem getElem?_applyTo (m : Table String) (e : Event) (key : String) :
    (e.applyTo m)[key]? =
      if e.key = key then (if e.action.isRemoval then none else e.value)
      else m[key]? := by
  unfold Event.applyTo
  cases hremoval : e.action.isRemoval with
  | true => simp [Std.ExtTreeMap.getElem?_erase]
  | false =>
      cases e.value with
      | none => simp [Std.ExtTreeMap.getElem?_erase]
      | some value => simp [Std.ExtTreeMap.getElem?_insert]

theorem Action.IsDue.value_eq {action : Action} {isThere : Bool}
    {value : Option String} (h : action.IsDue isThere value) :
    (if action.isRemoval then none else value) = value := by
  cases action with
  | set | create | compareAndSwap => rfl
  | delete | expire => exact h.left.symm
  | update | compareAndDelete => exact h.elim

section

variable {events : List Event} {key : String}

theorem replay_append_singleton (e : Event) :
    replay (events ++ [e]) = e.applyTo (replay events) := by
  simp [replay]

theorem replay_take_succ {i : Nat} {e : Event} (h : events[i]? = some e) :
    replay (events.take (i + 1)) = e.applyTo (replay (events.take i)) := by
  rw [List.take_add_one, h, Option.toList_some, replay_append_singleton]

theorem replay_take_of_length_le {i : Nat} (h : events.length ≤ i) :
    replay (events.take i) = replay events := by
  rw [List.take_of_length_le h]

theorem replay_take_append {i : Nat} (h : i ≤ events.length) (e : Event) :
    replay ((events ++ [e]).take i) = replay (events.take i) := by
  rw [List.take_append_of_le_length h]

theorem AppearsAt.event {i : Nat} (h : AppearsAt events key i) :
    exists e, events[i]? = some e ∧ e.key = key ∧
      e.action.isRemoval = false := by
  cases he : events[i]? with
  | none =>
      have hlength := List.getElem?_eq_none_iff.mp he
      have hgone := h.left
      rw [replay_take_of_length_le hlength,
        ← replay_take_of_length_le (Nat.le_succ_of_le hlength)] at hgone
      exact absurd hgone h.right
  | some e =>
      have hnow := h.right
      rw [replay_take_succ he, getElem?_applyTo] at hnow
      by_cases hkey : e.key = key
      · refine ⟨e, rfl, hkey, ?_⟩
        rw [if_pos hkey] at hnow
        cases hremoval : e.action.isRemoval with
        | false => rfl
        | true => simp [hremoval] at hnow
      · rw [if_neg hkey] at hnow
        exact absurd h.left hnow

theorem exists_appearsAt {a b : Nat} (hab : a ≤ b)
    (hgone : (replay (events.take a))[key]? = none)
    (hthere : (replay (events.take b))[key]? ≠ none) :
    exists i, a ≤ i ∧ i < b ∧ AppearsAt events key i := by
  induction hab with
  | refl => exact absurd hgone hthere
  | @step b hab ih =>
      by_cases hbefore : (replay (events.take b))[key]? = none
      · exact ⟨b, hab, Nat.lt_succ_self b, hbefore, hthere⟩
      · rcases ih hbefore with ⟨i, hai, hib, happears⟩
        exact ⟨i, hai, Nat.lt_succ_of_lt hib, happears⟩

end

/-!
# One more event

What is said of a list of events stays true when another one follows.
-/

section

variable {events : List Event} {key : String} {e : Event}

theorem event_of_append {i : Nat} {x : Event}
    (h : (events ++ [e])[i]? = some x) :
    (events[i]? = some x ∧ i < events.length) ∨
      (i = events.length ∧ x = e) := by
  rcases Nat.lt_trichotomy i events.length with hi | hi | hi
  · rw [List.getElem?_append_left hi] at h
    exact Or.inl ⟨h, hi⟩
  · rw [hi, List.getElem?_concat_length] at h
    exact Or.inr ⟨hi, (Option.some.inj h).symm⟩
  · rw [List.getElem?_eq_none (by rw [List.length_append]; exact hi)] at h
    cases h

theorem isLastEvent_append_self (h : e.key = key) :
    IsLastEvent (events ++ [e]) key events.length := by
  constructor
  · simp [h]
  · intro j hj
    rw [List.getElem?_eq_none (by rw [List.length_append]; exact hj)]
    simp

theorem IsLastEvent.append {i : Nat} (h : IsLastEvent events key i)
    (hkey : e.key ≠ key) :
    IsLastEvent (events ++ [e]) key i := by
  rcases Option.map_eq_some_iff.mp h.left with ⟨e', he', hkey'⟩
  rcases List.getElem?_eq_some_iff.mp he' with ⟨hi, _⟩
  constructor
  · rw [List.getElem?_append_left hi]
    exact h.left
  · intro j hij
    rcases Nat.lt_trichotomy j events.length with hj | hj | hj
    · rw [List.getElem?_append_left hj]
      exact h.right j hij
    · simp [hj, hkey]
    · rw [List.getElem?_eq_none (by rw [List.length_append]; exact hj)]
      simp

theorem isThereSince_append_self (hgone : (replay events)[key]? = none)
    (hthere : (replay (events ++ [e]))[key]? ≠ none) :
    IsThereSince (events ++ [e]) key events.length where
  known := by simp
  appears := by
    constructor
    · rw [replay_take_append (Nat.le_refl _),
        replay_take_of_length_le (Nat.le_refl _)]
      exact hgone
    · rw [replay_take_of_length_le (by simp)]
      exact hthere
  stays := by
    intro j hj
    rw [replay_take_of_length_le (by rw [List.length_append]; exact hj)]
    exact hthere

theorem IsThereSince.append {i : Nat} (h : IsThereSince events key i)
    (hthere : (replay (events ++ [e]))[key]? ≠ none) :
    IsThereSince (events ++ [e]) key i where
  known := by
    rw [List.length_append]
    exact Nat.lt_add_right _ h.known
  appears := by
    rw [AppearsAt, replay_take_append (Nat.le_of_lt h.known),
      replay_take_append h.known]
    exact h.appears
  stays := by
    intro j hij
    by_cases hj : j ≤ events.length
    · rw [replay_take_append hj]
      exact h.stays j hij
    · rw [replay_take_of_length_le (by simp; omega)]
      exact hthere

end

namespace MemoryStore

def journal (s : MemoryStore) : List Event :=
  s.events.toList

theorem journal_assign (s : MemoryStore) (action : Action) (key : String)
    (cell : Option Cell) :
    (s.assign action key cell).journal =
      s.journal ++ [⟨action, key, cell.map (·.value), s.revision + 1⟩] := by
  rw [journal, events_assign, Array.toList_push]
  rfl

theorem revision_assign (s : MemoryStore) (action : Action) (key : String)
    (cell : Option Cell) :
    (s.assign action key cell).revision = s.revision + 1 := by
  cases cell with
  | none => rfl
  | some c => rfl

def entryAfter (s : MemoryStore) (key : String) (c : Cell) : Entry :=
  { value := c.value
    createRevision :=
      ((s.get? key).map (·.createRevision)).getD (s.revision + 1)
    modRevision := s.revision + 1
    deadline := c.deadline }

theorem get?_assign (s : MemoryStore) (action : Action) (key k : String)
    (cell : Option Cell) :
    (s.assign action key cell).get? k =
      if key = k then cell.map (s.entryAfter key) else s.get? k := by
  cases cell with
  | none => exact get?_remove s action key k
  | some c => exact get?_insert s action key c.value c.deadline k

/-!
# Logged stores
-/

structure Logged (s : MemoryStore) : Prop where
  counted : s.revision = s.journal.length
  numbered : forall i (e : Event), s.journal[i]? = some e -> e.index = i + 1
  replayed : forall key, (replay s.journal)[key]? = s.value? key
  due : forall i (e : Event), s.journal[i]? = some e ->
    e.action.IsDue (replay (s.journal.take i))[e.key]?.isSome e.value
  modified : forall key x, s.get? key = some x ->
    exists i, x.modRevision = i + 1 ∧ IsLastEvent s.journal key i
  created : forall key x, s.get? key = some x ->
    exists i, x.createRevision = i + 1 ∧ IsThereSince s.journal key i

theorem logged_empty : Logged empty where
  counted := rfl
  numbered := by simp [journal, empty]
  replayed := by simp [journal, replay, empty, value?, get?]
  due := by simp [journal, empty]
  modified := by simp [get?_empty]
  created := by simp [get?_empty]

theorem Logged.assign {s : MemoryStore} (h : Logged s) {action : Action}
    {key : String} {cell : Option Cell}
    (hdue : action.IsDue (s.get? key).isSome (cell.map (·.value))) :
    Logged (s.assign action key cell) := by
  have hreplayed (k : String) :
      (replay (s.assign action key cell).journal)[k]? =
        (s.assign action key cell).value? k := by
    rw [journal_assign, replay_append_singleton, getElem?_applyTo,
      hdue.value_eq, value?, get?_assign]
    by_cases hk : key = k
    · rw [if_pos hk, if_pos hk, Option.map_map]
      rfl
    · rw [if_neg hk, if_neg hk]
      exact h.replayed k
  have hthere {k : String} {x : Entry}
      (hx : (s.assign action key cell).get? k = some x) :
      (replay (s.assign action key cell).journal)[k]? ≠ none := by
    rw [hreplayed k, value?, hx]
    simp
  rw [journal_assign] at hreplayed hthere
  constructor
  case counted =>
    rw [revision_assign, journal_assign, List.length_append, h.counted]
    rfl
  case replayed =>
    rw [journal_assign]
    exact hreplayed
  case numbered =>
    intro i e he
    rw [journal_assign] at he
    rcases event_of_append he with ⟨he, _⟩ | ⟨hi, rfl⟩
    · exact h.numbered i e he
    · rw [hi, ← h.counted]
  case due =>
    intro i e he
    rw [journal_assign] at he ⊢
    rcases event_of_append he with ⟨he, hi⟩ | ⟨hi, rfl⟩
    · rw [replay_take_append (Nat.le_of_lt hi)]
      exact h.due i e he
    · rw [hi, replay_take_append (Nat.le_refl _),
        replay_take_of_length_le (Nat.le_refl _), h.replayed, value?,
        Option.isSome_map]
      exact hdue
  case modified =>
    intro k x hx
    rw [journal_assign]
    rw [get?_assign] at hx
    by_cases hk : key = k
    · rw [if_pos hk] at hx
      rcases Option.map_eq_some_iff.mp hx with ⟨c, _, rfl⟩
      exact ⟨_, by rw [← h.counted]; rfl, isLastEvent_append_self hk⟩
    · rw [if_neg hk] at hx
      rcases h.modified k x hx with ⟨i, hi, hlast⟩
      exact ⟨i, hi, hlast.append hk⟩
  case created =>
    intro k x hx
    have hstays := hthere hx
    rw [journal_assign]
    rw [get?_assign] at hx
    by_cases hk : key = k
    · subst hk
      rw [if_pos rfl] at hx
      rcases Option.map_eq_some_iff.mp hx with ⟨c, _, rfl⟩
      cases hold : s.get? key with
      | none =>
          refine ⟨s.journal.length, ?_, isThereSince_append_self ?_ hstays⟩
          · simp [entryAfter, hold, h.counted]
          · rw [h.replayed, value?, hold]
            rfl
      | some old =>
          rcases h.created key old hold with ⟨i, hi, hsince⟩
          refine ⟨i, ?_, hsince.append hstays⟩
          simp [entryAfter, hold, hi]
    · rw [if_neg hk] at hx
      rcases h.created k x hx with ⟨i, hi, hsince⟩
      exact ⟨i, hi, hsince.append hstays⟩

theorem Logged.update {now : Nat} {s t : MemoryStore} (h : Logged s)
    (hst : Update now s t) :
    Logged t := by
  cases hst with
  | record c =>
      exact ⟨h.counted, h.numbered, h.replayed, h.due, h.modified, h.created⟩
  | assign hdue _ => exact h.assign hdue

theorem logged_after (run : List Operation.Call) (n : Nat) :
    Logged (empty.after run n) :=
  stateAt_invariant logged_empty
    (fun _ c hs => perform_keeps (fun _ _ hst h => h.update hst) hs c.operation)
      run n

/-!
# Removals and creations

A key that is removed was there and is gone, and only `set` and `create` bring
it back.
-/

section

variable {s : MemoryStore} {key : String}

theorem gone_of_removal {i : Nat} {e : Event} (he : s.journal[i]? = some e)
    (hremoval : e.action.isRemoval = true) :
    (replay (s.journal.take (i + 1)))[e.key]? = none := by
  rw [replay_take_succ he, getElem?_applyTo, if_pos rfl, if_pos hremoval]

theorem Logged.there_before_removal (h : Logged s) {i : Nat} {e : Event}
    (he : s.journal[i]? = some e) (hremoval : e.action.isRemoval = true) :
    (replay (s.journal.take i))[e.key]? ≠ none := by
  have hdue := h.due i e he
  cases haction : e.action with
  | delete | expire =>
      rw [haction] at hdue
      exact Option.isSome_iff_ne_none.mp hdue.right
  | compareAndDelete =>
      rw [haction] at hdue
      exact hdue.elim
  | set | create | update | compareAndSwap =>
      rw [haction] at hremoval
      cases hremoval

theorem Logged.action_of_appearsAt (h : Logged s) {i : Nat}
    (happears : AppearsAt s.journal key i) :
    exists e, s.journal[i]? = some e ∧ e.key = key ∧
      (e.action = .set ∨ e.action = .create) := by
  rcases happears.event with ⟨e, he, rfl, hremoval⟩
  refine ⟨e, he, rfl, ?_⟩
  have hdue := h.due i e he
  rw [happears.left] at hdue
  cases haction : e.action with
  | set => exact Or.inl rfl
  | create => exact Or.inr rfl
  | compareAndSwap =>
      rw [haction] at hdue
      cases hdue.right
  | update =>
      rw [haction] at hdue
      exact hdue.elim
  | delete | compareAndDelete | expire =>
      rw [haction] at hremoval
      cases hremoval

theorem Logged.created_between (h : Logged s) {i j : Nat} {e d : Event}
    (hij : i < j) (he : s.journal[i]? = some e) (hd : s.journal[j]? = some d)
    (hkey : e.key = d.key) (hremoval : e.action.isRemoval = true)
    (hremoval' : d.action.isRemoval = true) :
    exists k c, i < k ∧ k < j ∧ s.journal[k]? = some c ∧ c.key = d.key ∧
      (c.action = .set ∨ c.action = .create) := by
  have hgone := gone_of_removal he hremoval
  rw [hkey] at hgone
  rcases exists_appearsAt hij hgone (h.there_before_removal hd hremoval') with
    ⟨k, hik, hkj, happears⟩
  rcases h.action_of_appearsAt happears with ⟨c, hc, hckey, haction⟩
  exact ⟨k, c, hik, hkj, hc, hckey, haction⟩

/-!
# Revisions
-/

theorem Logged.created_last (h : Logged s) {x : Entry}
    (hx : s.get? key = some x) :
    exists i e, s.journal[i]? = some e ∧ e.index = x.createRevision ∧
      e.key = key ∧
      AppearsAt s.journal key i ∧ forall j, i < j ->
        ¬ AppearsAt s.journal key j := by
  rcases h.created key x hx with ⟨i, hi, hsince⟩
  rcases hsince.appears.event with ⟨e, he, hkey, _⟩
  refine ⟨i, e, he, (h.numbered i e he).trans hi.symm, hkey, hsince.appears, ?_⟩
  intro j hij happears
  exact hsince.stays j hij happears.left

theorem Logged.modified_last (h : Logged s) {x : Entry}
    (hx : s.get? key = some x) :
    exists i e, s.journal[i]? = some e ∧ e.index = x.modRevision ∧ e.key = key ∧
      IsLastEvent s.journal key i := by
  rcases h.modified key x hx with ⟨i, hi, hlast⟩
  rcases Option.map_eq_some_iff.mp hlast.left with ⟨e, he, hkey⟩
  exact ⟨i, e, he, (h.numbered i e he).trans hi.symm, hkey, hlast⟩

theorem Logged.revisions_le (h : Logged s) {x : Entry}
    (hx : s.get? key = some x) :
    x.createRevision ≤ x.modRevision ∧ x.modRevision ≤ s.revision := by
  rcases h.created key x hx with ⟨i, hi, hsince⟩
  rcases h.modified key x hx with ⟨j, hj, hlast⟩
  rcases hsince.appears.event with ⟨e, he, hkey, _⟩
  rcases Option.map_eq_some_iff.mp hlast.left with ⟨d, hd, _⟩
  have hjlt := (List.getElem?_eq_some_iff.mp hd).1
  have hij : i ≤ j := by
    apply Nat.le_of_not_lt
    intro hji
    exact hlast.right i hji (by rw [he, Option.map_some, hkey])
  rw [h.counted, hi, hj]
  exact ⟨Nat.succ_le_succ hij, hjlt⟩

theorem Logged.key_eq_of_modRevision_eq (h : Logged s) {k : String}
    {x y : Entry} (hx : s.get? key = some x) (hy : s.get? k = some y)
    (hxy : x.modRevision = y.modRevision) :
    key = k := by
  rcases h.modified key x hx with ⟨i, hi, hlast⟩
  rcases h.modified k y hy with ⟨j, hj, hlast'⟩
  have hij : i = j := by
    rw [hi, hj] at hxy
    exact Nat.succ.inj hxy
  subst hij
  have hkeys := hlast.left.symm.trans hlast'.left
  exact Option.some.inj hkeys

end

/-!
# Lapsed entries

A lapsed entry stays as it is until the event that it has expired, which is the
first that is told of its key.
-/

/-- Nothing has happened to the lapsed entry since `s`, or it has expired
first. -/
def LapsesSince (s : MemoryStore) (key : String) (x : Entry) (t : MemoryStore) :
    Prop :=
  exists later, t.journal = s.journal ++ later ∧
    match later.find? (fun e => decide (e.key = key)) with
    | none => t.get? key = some x
    | some e => e.action = .expire

section

variable {now : Nat} {s t u : MemoryStore} {key : String} {x : Entry}

theorem lapsesSince_refl (hx : s.get? key = some x) : LapsesSince s key x s :=
  ⟨[], (List.append_nil _).symm, hx⟩

theorem LapsesSince.update (h : LapsesSince s key x t)
    (hlapsed : x.hasLapsed now = true) (htu : Update now t u) :
    LapsesSince s key x u := by
  rcases h with ⟨later, hlater, hfound⟩
  cases htu with
  | record c => exact ⟨later, hlater, hfound⟩
  | @assign action k cell _ hexpire =>
      refine ⟨later ++ [⟨action, k, cell.map (·.value), t.revision + 1⟩], ?_,
        ?_⟩
      · rw [journal_assign, hlater, List.append_assoc]
      · rw [List.find?_append]
        cases hfirst : later.find? (fun e => decide (e.key = key)) with
        | some e =>
            rw [hfirst] at hfound
            exact hfound
        | none =>
            rw [hfirst] at hfound
            by_cases hk : k = key
            · subst hk
              have hgone : t.live? now k ≠ t.get? k := by
                simp [live?, hfound, hlapsed]
              simpa using hexpire.mpr hgone
            · simpa [hk, get?_assign] using hfound

theorem hasLapsed_of_later {later : Nat} (h : x.hasLapsed now = true)
    (hle : now ≤ later) :
    x.hasLapsed later = true := by
  unfold Entry.hasLapsed at h ⊢
  cases hdeadline : x.deadline with
  | none => simp [hdeadline] at h
  | some deadline =>
      rw [hdeadline] at h
      exact decide_eq_true (Nat.le_trans (of_decide_eq_true h) hle)

end

theorem lapsesSince_after {start : MemoryStore} {run : List Operation.Call}
    (htimely : IsTimely run) {m n : Nat} {c : Operation.Call} {key : String}
    {x : Entry} (hc : run[m]? = some c)
    (hx : (start.after run m).get? key = some x)
    (hlapsed : x.hasLapsed c.time = true) (hmn : m ≤ n) :
    LapsesSince (start.after run m) key x (start.after run n) := by
  induction hmn with
  | refl => exact lapsesSince_refl hx
  | @step n hmn ih =>
      cases hd : run[n]? with
      | none =>
          rw [after_succ_of_none hd]
          exact ih
      | some d =>
          have htime : c.time ≤ d.time := by
            rcases List.getElem?_eq_some_iff.mp hc with ⟨hm, rfl⟩
            rcases List.getElem?_eq_some_iff.mp hd with ⟨hn, rfl⟩
            rcases Nat.eq_or_lt_of_le hmn with rfl | hlt
            · exact Nat.le_refl _
            · exact List.pairwise_iff_getElem.mp htimely m n hm hn hlt
          rw [after_succ hd]
          exact perform_keeps (fun _ _ htu h =>
            h.update (hasLapsed_of_later hlapsed htime) htu) ih d.operation

/-!
# The journal as a whole
-/

/-- After any number of calls to a new store: (1) the events are numbered from
one on without a gap; (2) replaying them gives what is stored; (3) each event is
due, given those before it; (4) between two expiries of a key it is created; (5)
where time does not go back, the first event of a lapsed entry's key says that
it has expired; (6) the revisions of an entry are those of the last event of its
key and of the event by which the key last appeared, and (7) no two keys were
changed at the same revision. -/
theorem events_are_faithful (run : List Operation.Call) (n : Nat) :
    ((empty.after run n).revision = (empty.after run n).journal.length ∧
      forall i (e : Event), (empty.after run n).journal[i]? = some e ->
        e.index = i + 1) ∧
    (forall key, (replay (empty.after run n).journal)[key]? =
      (empty.after run n).value? key) ∧
    (forall i (e : Event), (empty.after run n).journal[i]? = some e ->
      e.action.IsDue (replay
        ((empty.after run n).journal.take i))[e.key]?.isSome e.value) ∧
    (forall (i j : Nat) (e d : Event), i < j ->
      (empty.after run n).journal[i]? = some e ->
      (empty.after run n).journal[j]? = some d -> e.key = d.key ->
      e.action = .expire ->
      d.action = .expire ->
      exists k, exists c : Event, i < k ∧ k < j ∧
        (empty.after run n).journal[k]? = some c ∧
        c.key = d.key ∧ (c.action = .set ∨ c.action = .create)) ∧
    (IsTimely run -> forall m c key x e, m ≤ n -> run[m]? = some c ->
      (empty.after run m).get? key = some x -> x.hasLapsed c.time = true ->
      ((empty.after run n).journal.drop
        (empty.after run m).journal.length).find?
        (fun e => decide (e.key = key)) = some e -> e.action = .expire) ∧
    (forall key x, (empty.after run n).get? key = some x ->
      (exists i, exists e : Event, (empty.after run n).journal[i]? = some e ∧
        e.index = x.modRevision ∧ e.key = key ∧
        IsLastEvent (empty.after run n).journal key i) ∧
      (exists i, exists e : Event, (empty.after run n).journal[i]? = some e ∧
        e.index = x.createRevision ∧ e.key = key ∧
        AppearsAt (empty.after run n).journal key i ∧
        forall j, i < j -> ¬ AppearsAt (empty.after run n).journal key j) ∧
      x.createRevision ≤ x.modRevision ∧
      x.modRevision ≤ (empty.after run n).revision) ∧
    (forall key k x y, (empty.after run n).get? key = some x ->
      (empty.after run n).get? k = some y -> x.modRevision = y.modRevision ->
        key = k) := by
  have hlogged := logged_after run n
  refine ⟨⟨hlogged.counted, hlogged.numbered⟩, hlogged.replayed, hlogged.due,
    ?_, ?_, ?_, ?_⟩
  · intro i j e d hij he hd hkey hexpire hexpire'
    exact hlogged.created_between hij he hd hkey (by rw [hexpire]; rfl)
      (by rw [hexpire']; rfl)
  · intro htimely m c key x e hmn hc hx hlapsed hfirst
    rcases lapsesSince_after htimely hc hx hlapsed hmn with
      ⟨later, hlater, hfound⟩
    rw [hlater, List.drop_left] at hfirst
    rw [hfirst] at hfound
    exact hfound
  · intro key x hx
    exact ⟨hlogged.modified_last hx, hlogged.created_last hx,
      hlogged.revisions_le hx⟩
  · intro key k x y hx hy hxy
    exact hlogged.key_eq_of_modRevision_eq hx hy hxy

/-- A claim is renewed and lapses twice, and is created anew each time. -/
def recreating : List Operation.Call :=
  [⟨0, .write (.createWithTtl "/ips/x" "a" 10)⟩,
    ⟨0, .write (.set "/ips/y" "b")⟩,
    ⟨4000000, .write (.compareAndSwapWithTtl "/ips/x" "a" "a" 10)⟩,
    ⟨20000000, .write (.setWithTtl "/ips/x" "c" 5)⟩, ⟨30000000, .sweep⟩,
    ⟨31000000, .write (.createWithTtl "/ips/x" "d" 10)⟩,
    ⟨32000000, .delete "/ips/y"⟩]

theorem events_are_faithful_recreating :
    (empty.after recreating 7).journal.map (fun e =>
      (e.index, e.action, e.key)) =
      [(1, .create, "/ips/x"), (2, .set, "/ips/y"),
        (3, .compareAndSwap, "/ips/x"), (4, .expire, "/ips/x"),
          (5, .set, "/ips/x"), (6, .expire, "/ips/x"),
        (7, .create, "/ips/x"), (8, .delete, "/ips/y")] ∧
    (exists k, exists c : Event, 3 < k ∧ k < 5 ∧
      (empty.after recreating 7).journal[k]? = some c ∧ c.key = "/ips/x" ∧
      (c.action = .set ∨ c.action = .create)) ∧
    (exists e, ((empty.after recreating 7).journal.drop
      (empty.after recreating 3).journal.length).find?
        (fun e => decide (e.key = "/ips/x")) =
        some e ∧ e.action = .expire) ∧
    (exists x, (empty.after recreating 3).get? "/ips/x" = some x ∧
      x.createRevision = 1 ∧
      x.modRevision = 3 ∧ exists i, exists e : Event,
        (empty.after recreating 3).journal[i]? = some e ∧
        e.index = x.createRevision ∧
        AppearsAt (empty.after recreating 3).journal "/ips/x" i) := by
  rcases events_are_faithful recreating 7 with
    ⟨_, _, _, hbetween, hlapses, _, _⟩
  rcases events_are_faithful recreating 3 with ⟨_, _, _, _, _, hrevisions, _⟩
  refine ⟨by decide +kernel, ?_, ?_, ?_⟩
  · exact hbetween 3 5 ⟨.expire, "/ips/x", none, 4⟩ ⟨.expire, "/ips/x", none,
      6⟩ (by decide) (by decide +kernel) (by decide +kernel) rfl rfl rfl
  · have hfirst : ((empty.after recreating 7).journal.drop
        (empty.after recreating 3).journal.length).find?
          (fun e => decide (e.key = "/ips/x")) =
          some ⟨.expire, "/ips/x", none, 4⟩ := by decide +kernel
    exact ⟨_, hfirst, hlapses (by decide) 3 ⟨20000000,
      .write (.setWithTtl "/ips/x" "c" 5)⟩
      "/ips/x" ⟨"a", 1, 3, some 14000000⟩ _ (by decide) rfl (by decide +kernel)
        (by decide) hfirst⟩
  · have hx : (empty.after recreating 3).get? "/ips/x" =
        some ⟨"a", 1, 3, some 14000000⟩ := by
      decide +kernel
    rcases (hrevisions "/ips/x" _ hx).right.left with
      ⟨i, e, he, hindex, _, happears, _⟩
    exact ⟨_, hx, rfl, rfl, i, e, he, hindex, happears⟩

end MemoryStore
end FairLease
