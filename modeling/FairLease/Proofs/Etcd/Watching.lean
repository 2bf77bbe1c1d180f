import FairLease.Etcd.Watcher
import FairLease.Proofs.Etcd.Exchange
import FairLease.Proofs.Etcd.Request
import FairLease.Proofs.Etcd.Wire

/-!
# Watching a cluster

The index a watcher asks for moves past each change it is told of and past
nothing else. What it has heard and what a cluster still remembers from there on
make up the whole history, however many polls fail or are given up.
-/

namespace FairLease
namespace Etcd

/-!
# Histories

The changes of a cluster have increasing indices. The earliest one from an index
on is followed by those from the next index on.
-/

def changesFrom (history : List Response) (index : Nat) : List Event :=
  (history.filter (fun r => decide (index ≤ r.node.modifiedIndex))).filterMap
    Response.event?

theorem filter_of_find? {history : List Response} {n : Nat} {r : Response}
    (hsorted : history.Pairwise
      (fun a b => a.node.modifiedIndex < b.node.modifiedIndex))
    (h : history.find? (fun r => decide (n ≤ r.node.modifiedIndex)) = some r) :
    history.filter (fun r => decide (n ≤ r.node.modifiedIndex)) =
      r :: history.filter (fun a =>
        decide (r.node.modifiedIndex + 1 ≤ a.node.modifiedIndex)) := by
  induction history with
  | nil => cases h
  | cons a rest ih =>
      rcases List.pairwise_cons.mp hsorted with ⟨ha, hrest⟩
      rw [List.find?_cons] at h
      by_cases hn : n ≤ a.node.modifiedIndex
      · rw [decide_eq_true hn] at h
        rw [← Option.some_inj.mp h]
        have hlow : rest.filter (fun b => decide (n ≤ b.node.modifiedIndex)) =
            rest := by
          rw [List.filter_eq_self]
          intro b hb
          have hlt := ha b hb
          exact decide_eq_true (by omega)
        have hnext :
            rest.filter (fun b =>
              decide (a.node.modifiedIndex + 1 ≤ b.node.modifiedIndex)) =
              rest := by
          rw [List.filter_eq_self]
          intro b hb
          have hlt := ha b hb
          exact decide_eq_true (by omega)
        rw [List.filter_cons, decide_eq_true hn, if_pos rfl, hlow,
          List.filter_cons, hnext, if_neg (by simp)]
      · rw [decide_eq_false hn] at h
        have hr : a.node.modifiedIndex < r.node.modifiedIndex :=
          ha r (List.mem_of_find?_eq_some h)
        rw [List.filter_cons, decide_eq_false hn, if_neg Bool.false_ne_true,
          ih hrest h, List.filter_cons, if_neg (by simp; omega)]

theorem changesFrom_of_find? {history : List Response} {n : Nat} {r : Response}
    (hsorted : history.Pairwise
      (fun a b => a.node.modifiedIndex < b.node.modifiedIndex))
    (h : history.find? (fun r => decide (n ≤ r.node.modifiedIndex)) = some r) :
    changesFrom history n = r.event?.toList ++
      changesFrom history (r.node.modifiedIndex + 1) := by
  unfold changesFrom
  rw [filter_of_find? hsorted h, List.filterMap_cons]
  cases r.event? <;> rfl

def changesAfter (history : List Response) (index : Nat) : List Event :=
  (history.filter (fun r => decide (index < r.node.modifiedIndex))).filterMap
    Response.event?

theorem changesFrom_indexAfter {history : List Response}
    (hbound : forall r, r ∈ history -> r.node.modifiedIndex + 1 < wordSize 64)
    (i : Nat) :
    changesFrom history (indexAfter i) = changesAfter history i := by
  unfold changesFrom changesAfter
  congr 1
  apply List.filter_congr
  intro r hr
  have hlast := hbound r hr
  rw [decide_eq_decide, indexAfter]
  omega

theorem indexAfter_lt (i : Nat) : indexAfter i < wordSize 64 := by
  have hpos : 0 < wordSize 64 := by decide
  unfold indexAfter
  omega

theorem indexAfter_of_lt {i : Nat} (h : i + 1 < wordSize 64) :
    indexAfter i = i + 1 := by
  unfold indexAfter
  omega

/-!
# Long polls as a cluster reads them

A cluster recognises a long poll by its parameters. It answers with the earliest
change from the index on that it is asked for, or does not answer.
-/

structure HttpRequest.IsPoll (q : HttpRequest) (e : Endpoint) (lead : String)
    (waitIndex : Option Nat) : Prop where
  method : q.method = .get
  host : q.host = e.host
  port : q.port = e.effectivePort
  path : q.path = (e.keyUrl lead).path
  wait : q.parameter "wait" = some "true"
  recursive : q.parameter "recursive" = some "true"
  waitIndex : (q.parameter "waitIndex").bind (Text.unsigned? 64) = waitIndex

def Endpoint.LeavesPollsAlone (e : Endpoint) : Prop :=
  forall name, name ∈ ["wait", "recursive", "waitIndex"] ->
    e.parameters.lookup name = none

theorem isPoll_at {e : Endpoint} (he : e.LeavesPollsAlone) {w : Watcher}
    (hw : forall n, w.waitIndex = some n -> n < wordSize 64) :
    ((KeyRequest.ofPoll w).at e).IsPoll e w.lead w.waitIndex := by
  have hparameter := fun name hname =>
    KeyRequest.parameter_at (.ofPoll w) e (he name hname)
  constructor
  · rfl
  · rfl
  · rfl
  · exact KeyRequest.path_at (.ofPoll w) e
  · rw [hparameter "wait" (by simp)]
    rfl
  · rw [hparameter "recursive" (by simp)]
    rfl
  · rw [hparameter "waitIndex" (by simp)]
    unfold KeyRequest.ofPoll
    cases hindex : w.waitIndex with
    | none => rfl
    | some n => exact Text.unsigned?_toString (hw n hindex)

/-- What a cluster may answer to a long poll. Without an index that is whatever
happens next. -/
def IsAnswer (history : List Response) : Option Nat -> Response -> Prop
  | some n, r =>
      history.find? (fun r => decide (n ≤ r.node.modifiedIndex)) = some r
  | none, r => r ∈ history

/-- In the states that satisfy `P` the endpoints of a client remember the
history: they answer no long poll with another change and with no cleared
history. -/
structure Remembers {σ : Type} (c : Client) (send : Transport σ) (lead : String)
    (history : List Response) (P : σ -> Prop) : Prop where
  increasing : history.Pairwise
    (fun a b => a.node.modifiedIndex < b.node.modifiedIndex)
  bounded : forall r, r ∈ history -> r.node.modifiedIndex + 1 < wordSize 64
  keeps : forall q s, P s -> P (send q s).2
  answers : forall e q s waitIndex x, e ∈ c.endpoints -> P s ->
    q.IsPoll e lead waitIndex ->
    (send q s).1.Carries x ->
      (forall r, x.reply = .success r -> IsAnswer history waitIndex r) ∧
      (forall e, x.reply = .failure e -> e.code ≠ ErrorBody.historyCleared)

/-!
# Deliveries

A watcher delivers events while its index moves from one number to another. What
is delivered and what is still to come is what was to come before.
-/

/-- Between two indices exactly these events of the history were delivered. A
watcher without an index starts with some change of the history. -/
def Delivers (history : List Response) :
    Option Nat -> Option Nat -> List Event -> Prop
  | some n, index, events =>
      exists m, index = some m ∧
        events ++ changesFrom history m = changesFrom history n
  | none, index, events =>
      (index = none ∧ events = []) ∨
      exists front r back m, history = front ++ r :: back ∧ index = some m ∧
        events ++ changesFrom history m = (r :: back).filterMap Response.event?

theorem delivers_refl (history : List Response) (index : Option Nat) :
    Delivers history index index [] := by
  cases index with
  | none => exact Or.inl ⟨rfl, rfl⟩
  | some n => exact ⟨n, rfl, rfl⟩

theorem Delivers.trans {history : List Response} {a b d : Option Nat}
    {events later : List Event} (h : Delivers history a b events)
    (h' : Delivers history b d later) :
    Delivers history a d (events ++ later) := by
  cases a with
  | some n =>
      rcases h with ⟨m, rfl, hevents⟩
      rcases h' with ⟨k, rfl, hlater⟩
      exact ⟨k, rfl, by rw [List.append_assoc, hlater, hevents]⟩
  | none =>
      rcases h with ⟨rfl, rfl⟩ | ⟨front, r, back, m, hhistory, rfl, hevents⟩
      · exact h'
      · rcases h' with ⟨k, rfl, hlater⟩
        exact Or.inr ⟨front, r, back, k, hhistory, rfl,
          by rw [List.append_assoc, hlater, hevents]⟩

structure Watcher.Moves (w : Watcher) (history : List Response)
    (events : List Event) (w' : Watcher) : Prop where
  lead : w'.lead = w.lead
  bounded : forall n, w'.waitIndex = some n -> n < wordSize 64
  delivers : Delivers history w.waitIndex w'.waitIndex events

theorem Watcher.moves_refl {w : Watcher}
    (hw : forall n, w.waitIndex = some n -> n < wordSize 64)
    (history : List Response) : w.Moves history [] w :=
  ⟨rfl, hw, delivers_refl history w.waitIndex⟩

theorem Watcher.Moves.trans {w w' w'' : Watcher} {history : List Response}
    {events later : List Event} (h : w.Moves history events w')
    (h' : w'.Moves history later w'') :
    w.Moves history (events ++ later) w'' :=
  ⟨h'.lead.trans h.lead, h'.bounded, h.delivers.trans h'.delivers⟩

theorem changesFrom_append {history front back : List Response} {r : Response}
    (hsorted : history.Pairwise
      (fun a b => a.node.modifiedIndex < b.node.modifiedIndex))
    (hhistory : history = front ++ r :: back) :
    changesFrom history (r.node.modifiedIndex + 1) =
      back.filterMap Response.event? := by
  subst hhistory
  rw [List.pairwise_append] at hsorted
  rcases hsorted with ⟨_, hback, hfront⟩
  rcases List.pairwise_cons.mp hback with ⟨hr, _⟩
  unfold changesFrom
  rw [List.filter_append, List.filter_eq_nil_iff.mpr, List.nil_append,
    List.filter_cons, List.filter_eq_self.mpr, if_neg (by simp)]
  · intro b hb
    have hlt := hr b hb
    exact decide_eq_true (by omega)
  · intro a ha
    have hlt := hfront a ha r List.mem_cons_self
    simp only [decide_eq_true_eq]
    omega

/-- The answer to a long poll takes the index past itself and past nothing
else. -/
theorem delivers_of_isAnswer {history : List Response} {index : Option Nat}
    {r : Response}
    (hsorted : history.Pairwise
      (fun a b => a.node.modifiedIndex < b.node.modifiedIndex))
    (h : IsAnswer history index r) :
    Delivers history index (some (r.node.modifiedIndex + 1))
      r.event?.toList := by
  cases index with
  | some n => exact ⟨_, rfl, (changesFrom_of_find? hsorted h).symm⟩
  | none =>
      rcases List.append_of_mem h with ⟨front, back, hhistory⟩
      refine Or.inr ⟨front, r, back, _, hhistory, rfl, ?_⟩
      rw [changesFrom_append hsorted hhistory, List.filterMap_cons]
      cases r.event? <;> rfl

/-!
# Polls

A poll in a state that remembers the history hands on the first change that is
still to come, passes over something that is none, or leaves the watcher as it
is.
-/

section

variable {σ : Type} {c : Client} {send : Transport σ} {lead : String}
variable {history : List Response} {P : σ -> Prop}

def heard : Option (Except StoreError Event) -> List Event
  | some (.ok e) => [e]
  | _ => []

theorem Watcher.poll_eq (w : Watcher) (s : σ) :
    w.poll c send s =
      (if (contact send (.ofPoll w) c.endpoints s).1.isEndless then
        (.endless, w)
        else match (contact send (.ofPoll w) c.endpoints s).1.result
          c.timeoutMs with
          | .error e => (.failed e, w)
          | .ok x => w.receive x,
        (contact send (.ofPoll w) c.endpoints s).2) := by
  simp only [Watcher.poll, bind, StateT.bind]
  rcases contact send (.ofPoll w) c.endpoints s with ⟨outcome, t⟩
  show (if outcome.isEndless then pure (.endless, w)
    else match outcome.result c.timeoutMs with
      | .error e => pure (.failed e, w)
      | .ok x => pure (w.receive x) : StateM σ (Poll × Watcher)) t = _
  cases outcome.isEndless with
  | true => rfl
  | false => cases outcome.result c.timeoutMs <;> rfl

theorem Watcher.poll_of_carries {w : Watcher} {s : σ} {x : Exchange}
    (h : (contact send (.ofPoll w) c.endpoints s).1.Carries x) :
    w.poll c send s = (w.receive x,
      (contact send (.ofPoll w) c.endpoints s).2) := by
  rw [poll_eq, h.isEndless_eq, h.result_eq]
  rfl

theorem Watcher.poll_cases (w : Watcher) (s : σ) :
    (exists x, (contact send (.ofPoll w) c.endpoints s).1.Carries x ∧
      (w.poll c send s).1 = w.receive x) ∨
    (w.poll c send s).1 = (.endless, w) ∨
      exists e, (w.poll c send s).1 = (.failed e, w) := by
  rw [poll_eq]
  cases hendless : (contact send (.ofPoll w) c.endpoints s).1.isEndless with
  | true => exact Or.inr (Or.inl rfl)
  | false =>
      cases hresult : (contact send (.ofPoll w) c.endpoints s).1.result
        c.timeoutMs with
      | error e => exact Or.inr (Or.inr ⟨e, rfl⟩)
      | ok x => exact Or.inl ⟨x, Outcome.carries_of_result hresult, rfl⟩

def Poll.events : Poll -> List Event
  | .event e => [e]
  | _ => []

def Watcher.past (w : Watcher) (r : Response) : Watcher :=
  { w with waitIndex := some (indexAfter r.node.modifiedIndex) }

theorem Watcher.receive_event (w : Watcher) (index : Option Nat) {r : Response}
    {e : Event} (h : r.event? = some e) :
    w.receive ⟨index, .success r⟩ = (.event e, w.past r) := by
  simp only [Watcher.receive, h]
  rfl

theorem Watcher.receive_other (w : Watcher) (index : Option Nat) {r : Response}
    (h : r.event? = none) :
    w.receive ⟨index, .success r⟩ = (.again, w.past r) := by
  simp only [Watcher.receive, h]
  rfl

theorem Watcher.receive_failure (w : Watcher) (index : Option Nat)
    {e : ErrorBody} (h : e.code ≠ ErrorBody.historyCleared) :
    w.receive ⟨index, .failure e⟩ = (.failed e.toStoreError, w) := by
  show (if (e.code == ErrorBody.historyCleared) = true then _ else _) = _
  rw [if_neg (by rw [beq_iff_eq]; exact h)]

def Watcher.resumed (w : Watcher) (index : Option Nat) (e : ErrorBody) :
    Watcher :=
  { w with waitIndex := (index.or e.index).map indexAfter }

theorem Watcher.receive_cleared (w : Watcher) (index : Option Nat)
    {e : ErrorBody} (h : e.code = ErrorBody.historyCleared) :
    w.receive ⟨index, .failure e⟩ = (.again, w.resumed index e) := by
  show (if (e.code == ErrorBody.historyCleared) = true then _ else _) = _
  rw [if_pos (by rw [beq_iff_eq]; exact h), resumed]
  cases index <;> rfl

theorem mem_of_isAnswer {index : Option Nat} {r : Response}
    (h : IsAnswer history index r) :
    r ∈ history := by
  cases index with
  | some n => exact List.mem_of_find?_eq_some h
  | none => exact h

theorem Remembers.answer (h : Remembers c send lead history P)
    (halone : forall e, e ∈ c.endpoints -> e.LeavesPollsAlone) {w : Watcher}
    (hlead : w.lead = lead)
    (hw : forall n, w.waitIndex = some n -> n < wordSize 64) {s : σ} (hs : P s)
    {x : Exchange} (hx : (contact send (.ofPoll w) c.endpoints s).1.Carries x) :
    (forall r, x.reply = .success r -> IsAnswer history w.waitIndex r) ∧
      (forall e, x.reply = .failure e ->
        e.code ≠ ErrorBody.historyCleared) := by
  have hne : c.endpoints ≠ [] := by
    intro hnil
    rw [hnil] at hx
    rcases hx with ⟨_, _, _, hcontact, _⟩
    cases hcontact
  rcases contact_eq_send h.keeps (.ofPoll w) hne hs with
    ⟨e, t, he, ht, hcontact⟩
  rw [hcontact] at hx
  have hpoll := isPoll_at (halone e he) hw
  rw [hlead] at hpoll
  exact h.answers e _ t w.waitIndex x he ht hpoll hx

theorem Remembers.poll (h : Remembers c send lead history P)
    (halone : forall e, e ∈ c.endpoints -> e.LeavesPollsAlone) {w : Watcher}
    (hlead : w.lead = lead)
    (hw : forall n, w.waitIndex = some n -> n < wordSize 64) {s : σ}
    (hs : P s) :
    w.Moves history (w.poll c send s).1.1.events (w.poll c send s).1.2 ∧
      P (w.poll c send s).2 := by
  constructor
  · rcases w.poll_cases s with ⟨x, hx, hpoll⟩ | hpoll | ⟨e, hpoll⟩
    · rcases h.answer halone hlead hw hs hx with ⟨hanswer, hremembered⟩
      rw [hpoll]
      rcases x with ⟨index, reply⟩
      cases reply with
      | success r =>
          have hdelivers := delivers_of_isAnswer h.increasing (hanswer r rfl)
          have hbound := h.bounded r (mem_of_isAnswer (hanswer r rfl))
          have hpast : forall n, (w.past r).waitIndex = some n ->
              n < wordSize 64 := by
            intro n hn
            cases hn
            exact indexAfter_lt _
          have hmoves : w.Moves history r.event?.toList (w.past r) := by
            refine ⟨rfl, hpast, ?_⟩
            show Delivers history w.waitIndex (some (indexAfter _)) _
            rw [indexAfter_of_lt hbound]
            exact hdelivers
          cases hevent : r.event? with
          | some e =>
              rw [hevent] at hmoves
              rw [w.receive_event index hevent]
              exact hmoves
          | none =>
              rw [hevent] at hmoves
              rw [w.receive_other index hevent]
              exact hmoves
      | failure e =>
          rw [w.receive_failure index (hremembered e rfl)]
          exact w.moves_refl hw history
    · rw [hpoll]
      exact w.moves_refl hw history
    · rw [hpoll]
      exact w.moves_refl hw history
  · rw [Watcher.poll_eq]
    exact contact_keeps h.keeps _ _ hs

/-!
# Calls

A call polls until there is a change or a failure. It may be given up after any
number of polls, and the next call goes on from the index that was reached.
-/

theorem Watcher.next_succ (w : Watcher) (tries : Nat) (s : σ) :
    w.next c send (tries + 1) s =
      match w.poll c send s with
      | ((.event e, w'), t) => ((some (.ok e), w'), t)
      | ((.failed e, w'), t) => ((some (.error e), w'), t)
      | ((.endless, w'), t) => ((none, w'), t)
      | ((.again, w'), t) => w'.next c send tries t := by
  rw [Watcher.next]
  simp only [bind, StateT.bind]
  rcases w.poll c send s with ⟨⟨result, w'⟩, t⟩
  cases result <;> rfl

theorem Remembers.next (h : Remembers c send lead history P)
    (halone : forall e, e ∈ c.endpoints -> e.LeavesPollsAlone) (tries : Nat)
    {w : Watcher}
    (hlead : w.lead = lead)
    (hw : forall n, w.waitIndex = some n -> n < wordSize 64) {s : σ}
    (hs : P s) :
    w.Moves history (heard (w.next c send tries s).1.1)
      (w.next c send tries s).1.2 := by
  induction tries generalizing w s with
  | zero => exact w.moves_refl hw history
  | succ tries ih =>
      rcases h.poll halone hlead hw hs with ⟨hmoves, ht⟩
      rw [Watcher.next_succ]
      rcases hpoll : w.poll c send s with ⟨⟨result, w'⟩, t⟩
      rw [hpoll] at hmoves ht
      cases result with
      | event e => exact hmoves
      | failed e => exact hmoves
      | endless => exact hmoves
      | again =>
          exact hmoves.trans (ih (hmoves.lead.trans hlead) hmoves.bounded ht)

/-- The changes that calls report one after another. Each call finds the cluster
in a state of its own and is given up after so many polls. -/
def Watcher.listen (c : Client) (send : Transport σ) (w : Watcher) :
    List (σ × Nat) -> List Event × Watcher
  | [] => ([], w)
  | (s, tries) :: rest =>
      let result := (w.next c send tries s).1
      let later := result.2.listen c send rest
      (heard result.1 ++ later.1, later.2)

theorem Remembers.listen (h : Remembers c send lead history P)
    (halone : forall e, e ∈ c.endpoints -> e.LeavesPollsAlone) {w : Watcher}
    (hlead : w.lead = lead)
    (hw : forall n, w.waitIndex = some n -> n < wordSize 64)
    {calls : List (σ × Nat)} (hcalls : forall call, call ∈ calls -> P call.1) :
    w.Moves history (w.listen c send calls).1 (w.listen c send calls).2 := by
  induction calls generalizing w with
  | nil => exact w.moves_refl hw history
  | cons call rest ih =>
      rcases call with ⟨s, tries⟩
      have hnext := h.next halone tries hlead hw (hcalls _ List.mem_cons_self)
      exact hnext.trans (ih (hnext.lead.trans hlead) hnext.bounded
        fun later hlater => hcalls later (List.mem_cons_of_mem _ hlater))

theorem Watcher.next_of_cleared {w : Watcher} {s : σ} {index : Option Nat}
    {e : ErrorBody} (hcode : e.code = ErrorBody.historyCleared)
    (h : (contact send (.ofPoll w) c.endpoints s).1.Carries ⟨index, .failure e⟩)
    (tries : Nat) :
    w.next c send (tries + 1) s =
      (w.resumed index e).next c send tries
        (contact send (.ofPoll w) c.endpoints s).2 := by
  rw [Watcher.next_succ, Watcher.poll_of_carries h,
    w.receive_cleared index hcode]

theorem Watcher.bounded_resumed (w : Watcher) (index : Option Nat)
    (e : ErrorBody) :
    forall n, (w.resumed index e).waitIndex = some n -> n < wordSize 64 := by
  intro n hn
  rcases Option.map_eq_some_iff.mp hn with ⟨i, _, rfl⟩
  exact indexAfter_lt i

/-!
# Progress

Where every poll is answered that has an answer, a call reports the next change
after at most as many polls as the history has entries.
-/

/-- In the states that satisfy `P` every long poll is answered for which the
history has a change. -/
def Answers (c : Client) (send : Transport σ) (lead : String)
    (history : List Response) (P : σ -> Prop) : Prop :=
  forall e q s n r, e ∈ c.endpoints -> P s -> q.IsPoll e lead (some n) ->
    history.find? (fun r => decide (n ≤ r.node.modifiedIndex)) = some r ->
      exists index, (send q s).1.Carries ⟨index, .success r⟩

theorem Remembers.next_answered (h : Remembers c send lead history P)
    (hanswers : Answers c send lead history P) (hne : c.endpoints ≠ [])
    (halone : forall e, e ∈ c.endpoints -> e.LeavesPollsAlone) {tries : Nat}
    {w : Watcher} (hlead : w.lead = lead) {n : Nat} (hn : w.waitIndex = some n)
    (hlt : n < wordSize 64) {s : σ} (hs : P s)
    (htries : (history.filter
      (fun r => decide (n ≤ r.node.modifiedIndex))).length ≤ tries)
    {event : Event} {later : List Event}
    (hchanges : changesFrom history n = event :: later) :
    (w.next c send tries s).1.1 = some (.ok event) := by
  induction tries generalizing w n s with
  | zero =>
      have hnil := List.eq_nil_of_length_eq_zero (Nat.le_zero.mp htries)
      rw [changesFrom, hnil] at hchanges
      cases hchanges
  | succ tries ih =>
      cases hfind : history.find?
        (fun r => decide (n ≤ r.node.modifiedIndex)) with
      | none =>
          rw [changesFrom, List.filter_eq_nil_iff.mpr
            (List.find?_eq_none.mp hfind)] at hchanges
          cases hchanges
      | some r =>
          have hbound := h.bounded r (List.mem_of_find?_eq_some hfind)
          have hfilter := filter_of_find? h.increasing hfind
          rw [changesFrom_of_find? h.increasing hfind] at hchanges
          rw [hfilter, List.length_cons] at htries
          rcases contact_eq_send h.keeps (.ofPoll w) hne hs with
            ⟨e, t, he, ht, hcontact⟩
          have hpoll := isPoll_at (halone e he) (w := w) (by
            intro m hm
            rw [hn] at hm
            cases hm
            exact hlt)
          rw [hlead, hn] at hpoll
          rcases hanswers e _ t n r he ht hpoll hfind with ⟨index, hcarries⟩
          rw [← hcontact] at hcarries
          rw [Watcher.next_succ, Watcher.poll_of_carries hcarries]
          cases hevent : r.event? with
          | some e =>
              rw [hevent] at hchanges
              rw [w.receive_event index hevent, (List.cons.inj hchanges).left]
          | none =>
              rw [hevent] at hchanges
              rw [w.receive_other index hevent]
              exact ih (w :=
                w.past r) hlead (congrArg some (indexAfter_of_lt hbound)) hbound
                (contact_keeps h.keeps _ _ hs)
                (Nat.le_of_succ_le_succ htries) hchanges

theorem Remembers.listen_answered (h : Remembers c send lead history P)
    (hanswers : Answers c send lead history P) (hne : c.endpoints ≠ [])
    (halone : forall e, e ∈ c.endpoints -> e.LeavesPollsAlone) {w : Watcher}
    (hlead : w.lead = lead) {n : Nat} (hn : w.waitIndex = some n)
    (hlt : n < wordSize 64) {calls : List (σ × Nat)}
    (hcalls : forall call, call ∈ calls -> P call.1 ∧ history.length ≤ call.2) :
    (w.listen c send calls).1 = (changesFrom history n).take calls.length := by
  induction calls generalizing w n with
  | nil => rfl
  | cons call rest ih =>
      rcases call with ⟨s, tries⟩
      rcases hcalls _ List.mem_cons_self with ⟨hs, htries⟩
      have hw : forall m, w.waitIndex = some m -> m < wordSize 64 := by
        intro m hm
        rw [hn] at hm
        cases hm
        exact hlt
      have hmoves := h.next halone tries hlead hw hs
      have hdelivers := hmoves.delivers
      rw [hn] at hdelivers
      rcases hdelivers with ⟨m, hm, hevents⟩
      have hlater := ih (hmoves.lead.trans hlead) hm (hmoves.bounded m hm)
        fun later hmem => hcalls later (List.mem_cons_of_mem _ hmem)
      show heard (w.next c send tries s).1.1 ++
        ((w.next c send tries s).1.2.listen c send rest).1 = _
      rw [hlater, List.length_cons]
      cases hchanges : changesFrom history n with
      | nil =>
          rw [hchanges, List.append_eq_nil_iff] at hevents
          rw [hevents.left, hevents.right, List.take_nil, List.take_nil,
            List.append_nil]
      | cons event later =>
          have hfilter :=
            List.length_filter_le
              (fun r => decide (n ≤ r.node.modifiedIndex)) history
          have hnext := h.next_answered hanswers hne halone hlead hn hlt hs
            (Nat.le_trans hfilter htries) hchanges
          rw [hnext, hchanges] at hevents
          have hrest : changesFrom history m = later :=
            (List.cons.inj hevents).right
          rw [hnext, List.take_succ_cons, hrest]
          rfl

theorem watch_of_carries {s : σ} {index : Option Nat} {reply : Reply}
    (h : (contact send (.ofRead lead) c.endpoints s).1.Carries ⟨index, reply⟩) :
    (c.watch send lead s).1 = .ok ⟨lead, index.map indexAfter⟩ := by
  have hexchange := c.exchange_eq send (.ofRead lead) s
  rw [h.result_eq] at hexchange
  simp only [Client.watch, bind, StateT.bind, hexchange]
  rfl

/-- A watcher reports the changes after the index it subscribed at, each once
and in order, whatever polls fail or are given up. After a cleared history it
does so from the index it resumes at. -/
theorem watches_exactly_once (h : Remembers c send lead history P)
    (halone : forall e, e ∈ c.endpoints -> e.LeavesPollsAlone)
    {calls : List (σ × Nat)} (hcalls : forall call, call ∈ calls -> P call.1) :
    (forall s i reply,
      (contact send (.ofRead lead) c.endpoints s).1.Carries ⟨some i, reply⟩ ->
        exists w m, (c.watch send lead s).1 = .ok w ∧
          (w.listen c send calls).2.waitIndex = some m ∧
          (w.listen c send calls).1 ++ changesFrom history m =
            changesAfter history i ∧
          (Answers c send lead history P -> c.endpoints ≠ [] ->
            (forall call, call ∈ calls -> history.length ≤ call.2) ->
              (w.listen c send calls).1 =
                (changesAfter history i).take calls.length)) ∧
    (forall w s index e, w.lead = lead -> e.code = ErrorBody.historyCleared ->
      (contact send (.ofPoll w) c.endpoints s).1.Carries ⟨index, .failure e⟩ ->
        (forall tries rest, w.listen c send ((s, tries + 1) :: rest) =
          (w.resumed index e).listen c send
            (((contact send (.ofPoll w) c.endpoints s).2, tries) :: rest)) ∧
        (forall i, index.or e.index = some i ->
          exists m, ((w.resumed index e).listen c send calls).2.waitIndex =
            some m ∧
            ((w.resumed index e).listen c send calls).1 ++
              changesFrom history m =
              changesAfter history i) ∧
        (index.or e.index = none ->
          ((w.resumed index e).listen c send calls).1 = [] ∨
          exists front r back m, history = front ++ r :: back ∧
            ((w.resumed index e).listen c send calls).2.waitIndex = some m ∧
            ((w.resumed index e).listen c send calls).1 ++
              changesFrom history m =
              (r :: back).filterMap Response.event?)) := by
  constructor
  · intro s i reply hcarries
    have hbounded : forall n, some (indexAfter i) = some n ->
        n < wordSize 64 := by
      intro n hn
      cases hn
      exact indexAfter_lt i
    have hmoves :=
      h.listen halone (w := ⟨lead, some (indexAfter i)⟩) rfl hbounded hcalls
    rcases hmoves.delivers with ⟨m, hm, hevents⟩
    rw [changesFrom_indexAfter h.bounded] at hevents
    refine ⟨_, m, watch_of_carries hcarries, hm, hevents, ?_⟩
    intro hanswers hne htries
    rw [← changesFrom_indexAfter h.bounded]
    exact h.listen_answered hanswers hne halone rfl rfl (indexAfter_lt i)
      fun call hcall =>
      ⟨hcalls call hcall, htries call hcall⟩
  · intro w s index e hlead hcode hcarries
    have hmoves :=
      h.listen halone (w :=
        w.resumed index e) hlead (w.bounded_resumed index e) hcalls
    have hdelivers := hmoves.delivers
    refine ⟨?_, ?_, ?_⟩
    · intro tries rest
      rw [Watcher.listen, Watcher.next_of_cleared hcode hcarries]
      rfl
    · intro i hi
      rw [show (w.resumed index e).waitIndex = (some i).map indexAfter from
        congrArg (Option.map indexAfter) hi] at hdelivers
      rcases hdelivers with ⟨m, hm, hevents⟩
      rw [changesFrom_indexAfter h.bounded] at hevents
      exact ⟨m, hm, hevents⟩
    · intro hnone
      rw [show (w.resumed index e).waitIndex = none from
        congrArg (Option.map indexAfter) hnone] at hdelivers
      rcases hdelivers with ⟨_, hevents⟩ | hdelivers
      · exact Or.inl hevents
      · exact Or.inr hdelivers

end

/-- A cluster that answers long polls from a history. In the state `false` it
has forgotten the history up to the index that it names. -/
def notifier (history : List Response) : Transport Bool := fun q remembers =>
  if q.parameter "wait" = some "true" then
    if remembers then
      match history.find? (fun r => decide
          (((q.parameter "waitIndex").bind (Text.unsigned? 64)).getD 0 ≤
            r.node.modifiedIndex)) with
      | some r => (.response 200 (some "7") (.whole r.toJson.compact), true)
      | none => (.silent, true)
    else
      (.response 400 (some "3")
        (.whole (ErrorBody.toJson ⟨ErrorBody.historyCleared, "cleared", none,
          none⟩).compact), true)
  else
    (.response 404 (some "3")
      (.whole (ErrorBody.toJson ⟨ErrorBody.keyNotFound, "Key not found", none,
        none⟩).compact),
      remembers)

theorem readIndex_three : readIndex (some "3") = some 3 := by
  decide +kernel

theorem readIndex_seven : readIndex (some "7") = some 7 := by
  decide +kernel

theorem remembers_notifier {history : List Response} (c : Client)
    (lead : String)
    (hsorted : history.Pairwise
      (fun a b => a.node.modifiedIndex < b.node.modifiedIndex))
    (hbound : forall r, r ∈ history -> r.node.modifiedIndex + 1 < wordSize 64)
    (hfits : forall r, r ∈ history -> r.Fits) :
    Remembers c (notifier history) lead history (· = true) ∧
      Answers c (notifier history) lead history (· = true) := by
  have hresponse : forall r, r ∈ history ->
      (Outcome.response 200 (some "7") (.whole r.toJson.compact)).Carries
        ⟨some 7, .success r⟩ :=
    fun r hr => ⟨200, some "7", _, rfl, readIndex_seven,
      Reply.decode_response (hfits r hr) 200⟩
  have hpolled : forall q e waitIndex, HttpRequest.IsPoll q e lead waitIndex ->
      (notifier history q true).1 =
        match history.find?
          (fun r => decide (waitIndex.getD 0 ≤ r.node.modifiedIndex)) with
        | some r => .response 200 (some "7") (.whole r.toJson.compact)
        | none => .silent := by
    intro q e waitIndex hpoll
    rw [notifier, hpoll.wait, if_pos rfl, if_pos rfl, hpoll.waitIndex]
    split <;> rfl
  constructor
  · refine ⟨hsorted, hbound, ?_, ?_⟩
    · intro q s hs
      rw [hs, notifier]
      split
      · rw [if_pos rfl]
        split <;> rfl
      · rfl
    · intro e q s waitIndex x _ hs hpoll hx
      rw [hs, hpolled q e waitIndex hpoll] at hx
      cases hfind : history.find?
        (fun r => decide (waitIndex.getD 0 ≤ r.node.modifiedIndex)) with
      | none =>
          rw [hfind] at hx
          rcases hx with ⟨_, _, _, hsilent, _⟩
          cases hsilent
      | some r =>
          have hmem := List.mem_of_find?_eq_some hfind
          rw [hfind] at hx
          rw [hx.unique (hresponse r hmem)]
          constructor
          · intro r' hr'
            cases hr'
            cases waitIndex with
            | some n => exact hfind
            | none => exact hmem
          · intro e' he'
            cases he'
  · intro e q s n r _ hs hpoll hfind
    refine ⟨some 7, ?_⟩
    rw [hs, hpolled q e (some n) hpoll]
    rw [show history.find?
      (fun r => decide ((some n).getD 0 ≤ r.node.modifiedIndex)) = some r
      from hfind]
    exact hresponse r (List.mem_of_find?_eq_some hfind)

theorem carries_read {e : Endpoint} (he : e.LeavesPollsAlone)
    (history : List Response) (lead : String) (remembers : Bool) :
    (notifier history ((KeyRequest.ofRead lead).at e) remembers).1.Carries
      ⟨some 3, .failure ⟨ErrorBody.keyNotFound, "Key not found", none,
        none⟩⟩ := by
  have hwait : ¬ ((KeyRequest.ofRead lead).at e).parameter "wait" =
      some "true" := by
    rw [KeyRequest.parameter_at _ _ (he "wait" (by simp)), KeyRequest.ofRead,
      List.lookup_nil]
    exact Option.some_ne_none "true" ∘ Eq.symm
  rw [notifier, if_neg hwait]
  exact ⟨404, some "3", _, rfl, readIndex_three,
    Reply.decode_error (by decide) (by simp) 404⟩

theorem carries_forgotten {e : Endpoint} (he : e.LeavesPollsAlone)
    (history : List Response) {w : Watcher}
    (hw : forall n, w.waitIndex = some n -> n < wordSize 64) :
    (notifier history ((KeyRequest.ofPoll w).at e) false).1.Carries
      ⟨some 3, .failure ⟨ErrorBody.historyCleared, "cleared", none, none⟩⟩ := by
  rw [notifier, (isPoll_at he hw).wait, if_pos rfl, if_neg Bool.false_ne_true]
  exact ⟨400, some "3", _, rfl, readIndex_three,
    Reply.decode_error (by decide) (by simp) 400⟩

def remembered : List Response :=
  [⟨"create", .mk "/c/a" (some "x") false [] 4 4 none, none⟩,
    ⟨"noop", .mk "/c/a" none false [] 4 6 none, none⟩,
    ⟨"delete", .mk "/c/a" none false [] 4 7 none, none⟩]

theorem watches_exactly_once_remembered :
    (exists w, (singleClient.watch (notifier remembered) "/c" true).1 = .ok w ∧
      (w.listen singleClient (notifier remembered) [(true, 3), (true, 3),
        (true, 3)]).1 =
        [⟨.create, "/c/a", some "x", 4⟩, ⟨.delete, "/c/a", none, 7⟩]) ∧
    (⟨"/c", some 1⟩ : Watcher).listen singleClient (notifier remembered)
        [(false, 2), (true, 0)] =
      (⟨"/c", some 4⟩ : Watcher).listen singleClient (notifier remembered)
        [(true, 1), (true, 0)] := by
  have hfits : forall r, r ∈ remembered -> r.Fits := by
    have hword : wordSize 64 = 18446744073709551616 := rfl
    intro r hr
    simp only [remembered, List.mem_cons, List.not_mem_nil, or_false] at hr
    rcases hr with rfl | rfl | rfl <;>
      exact ⟨by simp [Node.fits_mk_iff, hword], fun _ h => absurd h (by simp)⟩
  rcases remembers_notifier singleClient "/c" (by decide) (by decide) hfits with
    ⟨hremembers, hanswers⟩
  have halone : forall e, e ∈ singleClient.endpoints -> e.LeavesPollsAlone := by
    intro e he name _
    rw [List.mem_singleton.mp he]
    rfl
  have hsingle := halone singleEndpoint (List.mem_singleton_self _)
  have hread := carries_read hsingle remembered "/c" true
  have hpoll := carries_forgotten hsingle remembered (w :=
    ⟨"/c", some 1⟩) (by simp [wordSize])
  rw [← contact_single (notifier remembered)] at hread hpoll
  rcases watches_exactly_once hremembers halone
    (show forall call, call ∈ [(true, 3), (true, 3), (true, 3)] ->
      call.1 = true by decide)
    with ⟨hsubscribed, hresumed⟩
  rcases hsubscribed true 3 _ hread with ⟨w, m, hw, _, _, hall⟩
  rcases hresumed ⟨"/c", some 1⟩ false (some 3) _ rfl rfl hpoll with
    ⟨hlisten, _, _⟩
  refine ⟨⟨w, hw, ?_⟩, ?_⟩
  · rw [hall hanswers (by decide) (by decide)]
    rfl
  · exact hlisten 1 [(true, 0)]

end Etcd
end FairLease
