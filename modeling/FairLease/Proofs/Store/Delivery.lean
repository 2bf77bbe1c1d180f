import FairLease.Proofs.Store.Broadcast

/-!
# Delivery of events

What a watcher is given are the events under its namespace in the order in which
they were published, and it misses only what the channel no longer retained when
it came to it. The account of a watcher is kept round by round of its calls, and
through everything that others do.
-/

namespace FairLease
namespace Broadcast

/-!
# What a watcher has been given
-/

/-- Since `base` events had been published the watcher was given the numbered
events `heard`, and was then told `closings` times that the store is gone. It
was not given what `IsLost` tells of. -/
structure Account (s : Broadcast) (base : Nat) (IsLost : Nat -> Prop)
    (w : Watcher) (answers : List (Except StoreError Event))
    (heard : List (Event × Nat)) (closings : Nat) :
    Prop where
  begun : base ≤ w.position
  reached : w.position ≤ s.events.length
  answered : answers =
    heard.map (fun p => .ok p.1) ++ List.replicate closings
      (.error .watchClosed)
  ordered : heard.Pairwise (fun p q => p.2 < q.2)
  given : forall p, p ∈ heard -> base ≤ p.2 ∧ p.2 < w.position ∧
    s.events[p.2]? = some p.1 ∧ Text.startsWith p.1.key w.lead = true
  missed : forall i e, base ≤ i -> i < w.position -> s.events[i]? = some e ->
    Text.startsWith e.key w.lead = true -> (e, i) ∈ heard ∨ IsLost i
  complete : (forall i, ¬ IsLost i) -> heard.map (·.1) =
    ((s.events.take w.position).drop base).filter
      (fun e => Text.startsWith e.key w.lead)
  closed : 0 < closings -> s.isOpen = false ∧ w.position = s.events.length

section

variable {s t : Broadcast} {base : Nat} {IsLost : Nat -> Prop} {w : Watcher}
  {answers : List (Except StoreError Event)} {heard : List (Event × Nat)}
  {closings : Nat}

theorem Account.mono (h : Account s base IsLost w answers heard closings)
    {IsLost' : Nat -> Prop} (hlost : forall i, IsLost i -> IsLost' i) :
    Account s base IsLost' w answers heard closings :=
  { h with
    missed := fun i e hbase hi he hlead =>
      (h.missed i e hbase hi he hlead).imp id (hlost i)
    complete := fun hnone => h.complete fun i hi => hnone i (hlost i hi) }

theorem Account.publish (h : Account s base IsLost w answers heard closings)
    (hopen : s.isOpen = true) (hevents : s.events <+: t.events) :
    Account t base IsLost w answers heard closings := by
  rcases hevents with ⟨later, hlater⟩
  have hsame {i : Nat} (hi : i < w.position) : t.events[i]? = s.events[i]? := by
    rw [← hlater, List.getElem?_append_left (Nat.lt_of_lt_of_le hi h.reached)]
  constructor
  case begun => exact h.begun
  case reached =>
    rw [← hlater, List.length_append]
    exact Nat.le_trans h.reached (Nat.le_add_right _ _)
  case answered => exact h.answered
  case ordered => exact h.ordered
  case given =>
    intro p hp
    rcases h.given p hp with ⟨hbase, hlt, he, hlead⟩
    exact ⟨hbase, hlt, (hsame hlt).trans he, hlead⟩
  case missed =>
    intro i e hbase hi he
    exact h.missed i e hbase hi ((hsame hi).symm.trans he)
  case complete =>
    intro hnone
    rw [h.complete hnone, ← hlater, List.take_append_of_le_length h.reached]
  case closed =>
    intro hclosings
    rw [(h.closed hclosings).left] at hopen
    cases hopen

theorem Account.stay (h : Account s base IsLost w answers heard closings)
    (hevents : t.events = s.events)
    (hopen : s.isOpen = false -> t.isOpen = false) :
    Account t base IsLost w answers heard closings where
  begun := h.begun
  reached := hevents ▸ h.reached
  answered := h.answered
  ordered := h.ordered
  given := hevents ▸ h.given
  missed := hevents ▸ h.missed
  complete := hevents ▸ h.complete
  closed := fun hclosings =>
    ⟨hopen (h.closed hclosings).left, hevents ▸ (h.closed hclosings).right⟩

/-!
# Rounds
-/

theorem Account.skip (h : Account s base IsLost w answers heard closings)
    (hlost : forall i, w.position ≤ i ->
      i + watchCapacity < s.events.length -> IsLost i)
    (hlag : w.position + watchCapacity < s.events.length) :
    Account s base IsLost { w with position := s.events.length - watchCapacity } answers heard
      closings := by
  have hle : w.position ≤ s.events.length - watchCapacity :=
    Nat.le_sub_of_add_le (Nat.le_of_lt hlag)
  constructor
  case begun => exact Nat.le_trans h.begun hle
  case reached => exact Nat.sub_le _ _
  case answered => exact h.answered
  case ordered => exact h.ordered
  case given =>
    intro p hp
    rcases h.given p hp with ⟨hbase, hlt, he, hlead⟩
    exact ⟨hbase, Nat.lt_of_lt_of_le hlt hle, he, hlead⟩
  case missed =>
    intro i e hbase hi he hlead
    by_cases hseen : i < w.position
    · exact h.missed i e hbase hseen he hlead
    · exact Or.inr (hlost i (Nat.le_of_not_lt hseen) (Nat.add_lt_of_lt_sub hi))
  case complete =>
    intro hnone
    exact absurd (hlost w.position (Nat.le_refl _) hlag) (hnone _)
  case closed =>
    intro hclosings
    rw [(h.closed hclosings).right] at hlag
    exact absurd hlag (Nat.not_lt.mpr (Nat.le_add_right _ _))

theorem Account.advance (h : Account s base IsLost w answers heard closings)
    {e : Event} (he : s.events[w.position]? = some e) :
    exists heard',
      Account s base IsLost { w with position := w.position + 1 }
        (answers ++ (if Text.startsWith e.key w.lead then some (.ok e)
          else none).toList) heard'
        closings := by
  have hlt := (List.getElem?_eq_some_iff.mp he).1
  have hopen : closings = 0 := by
    apply Nat.eq_zero_of_not_pos
    intro hclosings
    rw [(h.closed hclosings).right] at hlt
    exact absurd hlt (Nat.lt_irrefl _)
  have htake : (s.events.take (w.position + 1)).drop base =
      (s.events.take w.position).drop base ++ [e] := by
    rw [List.take_add_one, he, List.drop_append_of_le_length]
    · rfl
    · rw [List.length_take_of_le h.reached]
      exact h.begun
  have hgiven (p : Event × Nat) (hp : p ∈ heard) : base ≤ p.2 ∧
      p.2 < w.position + 1 ∧
      s.events[p.2]? = some p.1 ∧ Text.startsWith p.1.key w.lead = true := by
    rcases h.given p hp with ⟨hbase, hbefore, hevent, hlead⟩
    exact ⟨hbase, Nat.lt_succ_of_lt hbefore, hevent, hlead⟩
  have hmissed (i : Nat) (d : Event) (hbase : base ≤ i)
      (hi : i < w.position + 1)
      (hd : s.events[i]? = some d)
      (hlead : Text.startsWith d.key w.lead = true) :
      (d, i) ∈ heard ∨ IsLost i ∨ (d = e ∧ i = w.position) := by
    rcases Nat.lt_succ_iff_lt_or_eq.mp hi with hbefore | rfl
    · exact (h.missed i d hbase hbefore hd hlead).imp id Or.inl
    · rw [he] at hd
      exact Or.inr (Or.inr ⟨(Option.some.inj hd).symm, rfl⟩)
  cases hmatch : Text.startsWith e.key w.lead with
  | true =>
      refine ⟨heard ++ [(e, w.position)], ?_⟩
      constructor
      case begun => exact Nat.le_succ_of_le h.begun
      case reached => exact hlt
      case answered => simp [h.answered, hopen]
      case ordered =>
        refine List.pairwise_append.mpr ⟨h.ordered,
          List.pairwise_singleton _ _, ?_⟩
        intro p hp q hq
        rw [List.mem_singleton.mp hq]
        exact (h.given p hp).right.left
      case given =>
        intro p hp
        rcases List.mem_append.mp hp with hp | hp
        · exact hgiven p hp
        · rw [List.mem_singleton.mp hp]
          exact ⟨h.begun, Nat.lt_succ_self _, he, hmatch⟩
      case missed =>
        intro i d hbase hi hd hlead
        rcases hmissed i d hbase hi hd hlead with hheard | hlost | ⟨rfl, rfl⟩
        · exact Or.inl (List.mem_append_left _ hheard)
        · exact Or.inr hlost
        · exact Or.inl (List.mem_append_right _ (List.mem_singleton_self _))
      case complete =>
        intro hnone
        rw [List.map_append, h.complete hnone, htake, List.filter_append]
        simp [hmatch]
      case closed => simp [hopen]
  | false =>
      refine ⟨heard, ?_⟩
      constructor
      case begun => exact Nat.le_succ_of_le h.begun
      case reached => exact hlt
      case answered => simp [h.answered, hopen]
      case ordered => exact h.ordered
      case given => exact hgiven
      case missed =>
        intro i d hbase hi hd hlead
        rcases hmissed i d hbase hi hd hlead with hheard | hlost | ⟨rfl, rfl⟩
        · exact Or.inl hheard
        · exact Or.inr hlost
        · rw [hmatch] at hlead
          cases hlead
      case complete =>
        intro hnone
        rw [h.complete hnone, htake, List.filter_append]
        simp [hmatch]
      case closed => simp [hopen]

theorem Account.conclude (h : Account s base IsLost w answers heard closings)
    (hopen : s.isOpen = false) (hend : s.events.length ≤ w.position) :
    Account s base IsLost w (answers ++ [.error .watchClosed]) heard
      (closings + 1) :=
  { h with
    answered := by
      rw [h.answered, List.append_assoc, ← List.replicate_succ']
    closed := fun _ => ⟨hopen, Nat.le_antisymm h.reached hend⟩ }

theorem Account.attend (h : Account s base IsLost w answers heard closings)
    (hlost : forall i, w.position ≤ i ->
      i + watchCapacity < s.events.length -> IsLost i) :
    exists heard' closings',
      Account s base IsLost (w.attend s.isOpen s.store.events).2
        (answers ++ (w.attend s.isOpen s.store.events).1.toList)
        heard' closings' := by
  have hsize : s.store.events.size = s.events.length := rfl
  rcases w.attend_cases s.isOpen s.store.events with
    ⟨hlag, hattend⟩ | ⟨_, e, he, hattend⟩ | ⟨hend, hattend⟩
  · rw [hattend]
    refine ⟨heard, closings, ?_⟩
    simpa [hsize] using h.skip hlost hlag
  · rw [hattend]
    have he' : s.events[w.position]? = some e := by
      rw [← he, events, Array.getElem?_toList]
    rcases h.advance he' with ⟨heard', hnext⟩
    exact ⟨heard', closings, hnext⟩
  · rw [hattend]
    cases hopen : s.isOpen with
    | true => exact ⟨heard, closings, by simpa using h⟩
    | false => exact ⟨heard, closings + 1, h.conclude hopen hend⟩

theorem Account.listen (n : Nat)
    (h : Account s base IsLost w answers heard closings)
    (hlost : forall i, w.position ≤ i ->
      i + watchCapacity < s.events.length -> IsLost i) :
    exists heard' closings',
      Account s base IsLost (w.listen s.isOpen s.store.events n).2
        (answers ++ (w.listen s.isOpen s.store.events n).1.toList)
        heard' closings' := by
  induction n generalizing w answers heard closings with
  | zero => exact ⟨heard, closings, by simpa [Watcher.listen] using h⟩
  | succ n ih =>
      have hle := w.position_le_attend s.isOpen s.store.events
      rcases h.attend hlost with ⟨heard', closings', hnext⟩
      rw [Watcher.listen]
      rcases hattend : w.attend s.isOpen s.store.events with ⟨_ | answer, v⟩
      · rw [hattend] at hle hnext
        rw [Option.toList_none, List.append_nil] at hnext
        exact ih hnext fun i hi => hlost i (Nat.le_trans hle hi)
      · rw [hattend] at hnext
        exact ⟨heard', closings', hnext⟩

theorem Account.ask (h : Account s base IsLost w answers heard closings)
    (hlost : forall i, w.position ≤ i ->
      i + watchCapacity < s.events.length -> IsLost i) :
    exists heard' closings',
      Account s base IsLost (w.ask s.isOpen s.store.events).2
        (answers ++ (w.ask s.isOpen s.store.events).1.toList)
        heard' closings' := by
  rw [← Watcher.listen_eq_ask s.isOpen s.store.events (Nat.lt_succ_self _)]
  exact h.listen _ hlost

/-!
# Steps
-/

theorem account_step {j : Nat} {l : Listener} (hl : s.listeners[j]? = some l)
    (h : Account s base IsLost l.watcher l.answers heard closings)
    (hlost : forall i, l.watcher.position ≤ i ->
      i + watchCapacity < s.events.length -> IsLost i)
    (step : Step) :
    exists l' heard' closings', (s.step step).listeners[j]? = some l' ∧
      l'.watcher.lead = l.watcher.lead ∧
      Account (s.step step) base IsLost l'.watcher l'.answers heard'
        closings' := by
  rcases s.listener_step step hl with
    ⟨l', hl', ⟨hwatcher, hanswers⟩ | ⟨hstore, hopen, f, hf, hwatcher, hanswers⟩⟩
  · refine ⟨l', heard, closings, hl', by rw [hwatcher], ?_⟩
    rw [hwatcher, hanswers]
    rcases s.events_step step with ⟨hopen, hevents⟩ | ⟨hevents, hopen⟩
    · exact h.publish hopen hevents
    · exact h.stay hevents hopen
  · have hround : (f l.watcher).2.lead = l.watcher.lead ∧
        exists heard' closings', Account s base IsLost (f l.watcher).2
          (l.answers ++ (f l.watcher).1.toList) heard' closings' := by
      rcases hf with rfl | rfl
      · exact ⟨Watcher.lead_attend _ _ _, h.attend hlost⟩
      · exact ⟨Watcher.lead_ask _ _ _, h.ask hlost⟩
    rcases hround with ⟨hlead, heard', closings', hnext⟩
    refine ⟨l', heard', closings', hl', by rw [hwatcher, hlead], ?_⟩
    rw [hwatcher, hanswers]
    exact hnext.stay (by rw [events, hstore, events])
      (fun hgone => hopen.trans hgone)

end

/-!
# Runs
-/

section

variable {steps : List Step}

structure Subscribes (steps : List Step) (m j : Nat) (lead : String) :
    Prop where
  step : steps[m]? = some (.watch lead)
  isOpen : (after steps m).isOpen = true
  index : (after steps m).listeners.size = j

/-- Up to step `n` no more events than the channel retains are ever unread by
the `j`th watcher. -/
def KeepsUp (steps : List Step) (m n j : Nat) : Prop :=
  forall k l, m < k -> k ≤ n -> (after steps k).listeners[j]? = some l ->
    (after steps k).events.length ≤ l.watcher.position + watchCapacity

/-- At some time between the steps `m` and `n` the `j`th watcher had not come to
the `i`th event, and since that one at least as many had been published as the
channel retains. -/
def Overrun (steps : List Step) (m n j i : Nat) : Prop :=
  exists k l, m < k ∧ k < n ∧ (after steps k).listeners[j]? = some l ∧
    l.watcher.position ≤ i ∧ i + watchCapacity < (after steps k).events.length

theorem KeepsUp.not_overrun {m n j : Nat} (h : KeepsUp steps m n j) (i : Nat) :
    ¬ Overrun steps m n j i := by
  rintro ⟨k, l, hmk, hkn, hl, hi, hover⟩
  have hle := h k l hmk (Nat.le_of_lt hkn) hl
  omega

/-- A watcher is accounted for from its subscription on. -/
theorem Subscribes.account {m n j : Nat} {lead : String}
    (h : Subscribes steps m j lead) (hmn : m < n) :
    exists l heard closings, (after steps n).listeners[j]? = some l ∧
      l.watcher.lead = lead ∧
      Account (after steps n)
        (after steps m).events.length (Overrun steps m n j) l.watcher
        l.answers heard closings := by
  induction hmn with
  | refl =>
      have hwatch : after steps (m + 1) = { after steps m with
          listeners := (after steps m).listeners.push
            ⟨.subscribe (after steps m).store lead, false, []⟩ } := by
        rw [after_succ h.step]
        simp [Broadcast.step, h.isOpen]
      refine ⟨⟨.subscribe (after steps m).store lead, false, []⟩, [], 0,
        ?_, rfl, ?_⟩
      · simp [hwatch, ← h.index]
      · rw [hwatch]
        constructor
        case begun => exact Nat.le_refl _
        case reached => exact Nat.le_refl _
        case answered => rfl
        case ordered => exact List.Pairwise.nil
        case given => simp
        case missed =>
          intro i e hbase hi
          exact absurd hbase (Nat.not_le.mpr hi)
        case complete => simp [Watcher.subscribe, events]
        case closed => simp
  | @step n hmn ih =>
      rcases ih with ⟨l, heard, closings, hl, hlead, haccount⟩
      have hmono : Account (after steps n) (after steps m).events.length
          (Overrun steps m (n + 1) j) l.watcher l.answers heard closings := by
        refine haccount.mono ?_
        rintro i ⟨k, l, hmk, hkn, hover⟩
        exact ⟨k, l, hmk, Nat.lt_succ_of_lt hkn, hover⟩
      cases hn : steps[n]? with
      | none =>
          rw [after, stateAt_succ_of_none hn]
          exact ⟨l, heard, closings, hl, hlead, hmono⟩
      | some step =>
          rw [after_succ hn]
          rcases account_step hl hmono
            (fun i hi hover => ⟨n, l, hmn, Nat.lt_succ_self n, hl, hi,
              hover⟩) step with
            ⟨l', heard', closings', hl', hlead', hnext⟩
          exact ⟨l', heard', closings', hl', hlead'.trans hlead, hnext⟩

/-- As long as not too much is published a new watcher keeps up even if it asks
for nothing. -/
theorem Subscribes.keepsUp {m n j : Nat} {lead : String}
    (h : Subscribes steps m j lead)
    (hfew : (after steps n).events.length ≤ (after steps m).events.length +
      watchCapacity) :
    KeepsUp steps m n j := by
  intro k l hmk hkn hl
  rcases h.account hmk with ⟨l', _, _, hl', _, haccount⟩
  obtain rfl : l' = l := Option.some.inj (hl'.symm.trans hl)
  have hbegun := haccount.begun
  have hlength := (events_mono steps hkn).length_le
  omega

/-- Clients of a store and its watchers act in any order, and by step `m` a
watcher subscribes: (1) it is given events that are published afterwards under
its namespace, in their order and each once; (2) if it was not given one that it
has passed, then so many later events had been published before it came to it
that the channel did not retain it; (3) if it keeps up then the events that it
was given and those that are due are all of them; (4) it is told that the store
is gone only when nothing is due any more; (5) `k` calls return what is due, and
after that they wait as long as the store is there and tell that it is gone
otherwise. -/
theorem watchers_are_served {steps : List Step} {m n j : Nat} {lead : String}
    (h : Subscribes steps m j lead) (hmn : m < n) :
    exists (l : Listener) (heard : List (Event × Nat)) (closings : Nat),
      (after steps n).listeners[j]? = some l ∧
      (l.answers = heard.map (fun p => .ok p.1) ++
        List.replicate closings (.error .watchClosed) ∧
        heard.Pairwise (fun p q => p.2 < q.2) ∧
        forall p, p ∈ heard -> (after steps m).events.length ≤ p.2 ∧
          (after steps n).events[p.2]? = some p.1 ∧
          Text.startsWith p.1.key lead = true) ∧
      (forall i e, (after steps m).events.length ≤ i ->
        i < l.watcher.position ->
        (after steps n).events[i]? = some e ->
        Text.startsWith e.key lead = true ->
        (e, i) ∈ heard ∨ Overrun steps m n j i) ∧
      (KeepsUp steps m n j ->
        heard.map (fun p => p.1) ++ l.watcher.due (after steps n).store.events =
          ((after steps n).events.drop (after steps m).events.length).filter
            (fun e => Text.startsWith e.key lead)) ∧
      (0 < closings -> (after steps n).isOpen = false ∧
        l.watcher.due (after steps n).store.events = []) ∧
      (forall k, exists l',
        ((asks j k).foldl step (after steps n)).listeners[j]? = some l' ∧
        l'.answers = l.answers ++
          ((l.watcher.due (after steps n).store.events).take k).map .ok ++
          if (after steps n).isOpen then []
          else List.replicate
            (k - (l.watcher.due (after steps n).store.events).length)
            (.error .watchClosed)) := by
  rcases h.account hmn with ⟨l, heard, closings, hl, hlead, haccount⟩
  refine ⟨l, heard, closings, hl, ⟨haccount.answered, haccount.ordered, ?_⟩,
    ?_, ?_, ?_, ?_⟩
  · intro p hp
    rcases haccount.given p hp with ⟨hbase, _, he, hunder⟩
    exact ⟨hbase, he, hlead ▸ hunder⟩
  · rw [← hlead]
    exact haccount.missed
  · intro hkeeps
    have hresume : l.watcher.resume (after steps n).store.events.size =
        l.watcher.position :=
      Watcher.resume_of_le (hkeeps n l hmn (Nat.le_refl n) hl) l.watcher.lead
    have hsplit : (after steps n).events.drop (after steps m).events.length =
        ((after steps n).events.take l.watcher.position).drop
          (after steps m).events.length ++
          (after steps n).events.drop l.watcher.position := by
      rw [← List.drop_append_of_le_length, List.take_append_drop]
      rw [List.length_take_of_le haccount.reached]
      exact haccount.begun
    rw [haccount.complete hkeeps.not_overrun, Watcher.due, hresume, hsplit,
      List.filter_append, hlead]
    rfl
  · intro hclosings
    rcases haccount.closed hclosings with ⟨hgone, hend⟩
    refine ⟨hgone, ?_⟩
    have hresume : l.watcher.resume (after steps n).store.events.size =
        l.watcher.position :=
      Watcher.resume_of_le (hend ▸ Nat.le_add_right _ _) l.watcher.lead
    rw [Watcher.due, hresume, hend, events, List.drop_length]
    rfl
  · intro k
    exact answers_asks k (after steps n) hl

end

def noted (key : String) : Event :=
  ⟨.set, key, none, 0⟩

/-- A watcher is overrun by foreign events. It comes to the oldest retained one,
when its call is dropped. Another one subscribes later, and the store goes
away. -/
def overrunningSteps : List Step :=
  .watch "/a/" :: .inject (noted "/a/x") :: List.replicate 1024
    (.inject (noted "/b/x")) ++
    [.watch "/a/", .inject (noted "/a/y"), .ask 0, .attend 0, .attend 0,
      .drop 0, .close]

theorem watchers_are_served_overrunningSteps :
    (Overrun overrunningSteps 0 1033 0 0 ∧
      exists l, ((asks 0 2).foldl step
        (after overrunningSteps 1033)).listeners[0]? = some l ∧
        l.answers = [.ok (noted "/a/y"), .error .watchClosed]) ∧
    exists l, (after overrunningSteps 1033).listeners[1]? = some l ∧
      l.watcher.due (after overrunningSteps 1033).store.events =
        [noted "/a/y"] := by
  have hearly : Subscribes overrunningSteps 0 0 "/a/" := ⟨rfl, rfl, rfl⟩
  have hlate : Subscribes overrunningSteps 1026 1 "/a/" := by
    constructor
    · simp [overrunningSteps, -List.reduceReplicate]
    · decide +kernel
    · decide +kernel
  have hpublished : (after overrunningSteps 1026).events.length = 1025 ∧
      (after overrunningSteps 1033).events.length = 1026 ∧
      (after overrunningSteps 1033).events[0]? = some (noted "/a/x") ∧
      (after overrunningSteps 1033).events.drop 1025 = [noted "/a/y"] ∧
      (after overrunningSteps 1033).isOpen = false := by decide +kernel
  rcases hpublished with ⟨hbefore, hafter, hfirst, hlast, hgone⟩
  have hidle {j : Nat} {l : Listener} {w : Watcher}
      (hl : (after overrunningSteps 1033).listeners[j]? = some l)
      (hj : (after overrunningSteps 1033).listeners[j]?.map
        (fun l => (l.watcher, l.answers.isEmpty)) = some (w, true)) :
      l.watcher = w ∧ l.answers = [] := by
    simpa [hl] using hj
  constructor
  · rcases watchers_are_served hearly (show 0 < 1033 by decide) with
      ⟨l, heard, closings, hl, ⟨hanswers, _⟩, hmissed, _, _, hasks⟩
    have hl₀ : l.watcher = ⟨"/a/", 3⟩ ∧ l.answers = [] :=
      hidle hl (by decide +kernel)
    have hdue : l.watcher.due (after overrunningSteps 1033).store.events =
        [noted "/a/y"] := by
      rw [hl₀.left]
      decide +kernel
    constructor
    · have hpassed : 0 < l.watcher.position := by
        rw [hl₀.left]
        decide
      rcases hmissed 0 (noted "/a/x") (Nat.le_refl 0) hpassed hfirst
        (by decide) with
        hgiven | hover
      · have hmem : Except.ok (noted "/a/x") ∈ l.answers := by
          rw [hanswers]
          exact List.mem_append_left _ (List.mem_map_of_mem hgiven)
        rw [hl₀.right] at hmem
        cases hmem
      · exact hover
    · rcases hasks 2 with ⟨l', hl', hanswers'⟩
      rw [hl₀.right, hdue, hgone] at hanswers'
      exact ⟨l', hl', hanswers'⟩
  · rcases watchers_are_served hlate (show 1026 < 1033 by decide) with
      ⟨l, heard, closings, hl, ⟨hanswers, _⟩, _, hkeeps, _⟩
    have hl₁ : l.watcher = ⟨"/a/", 1025⟩ ∧ l.answers = [] :=
      hidle hl (by decide +kernel)
    have hnone : heard = [] := by
      rw [hl₁.right] at hanswers
      exact List.map_eq_nil_iff.mp
        (List.append_eq_nil_iff.mp hanswers.symm).left
    have hall := hkeeps (hlate.keepsUp (by rw [hbefore, hafter]; decide))
    rw [hnone, hbefore, hlast] at hall
    exact ⟨l, hl, hall⟩

end Broadcast
end FairLease
