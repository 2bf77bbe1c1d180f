import FairLease.Claim.Manager

/-!
# Renewals at work

The renewals of a manager go on one step at a time, and between any two steps
others may ask for claims, shut the manager down, or move another renewal. What
the store answers to a renewal is part of the event and not restricted here.
-/

namespace FairLease

namespace Manager

inductive Event where
  | ensure (now : Nat) (lease : Lease)
  | tick (id now : Nat)
  | swapped (id : Nat) (result : Except StoreError WriteResult)
  | reread (id : Nat) (result : Except StoreError ReadResult)
  | release (id : Nat)
  | finish (id : Nat)
  /-- A renewal notices that its manager has been cancelled. -/
  | stop (id : Nat)
  | cancel
  | drain

def change (m : Manager) (id : Nat) (f : Renewal -> Renewal) : Manager :=
  { m with registry := m.registry.update id f }

def step (m : Manager) : Event -> Manager
  | .ensure now lease => { m with registry := (m.registry.ensure m.isCancelled now lease).2 }
  | .tick id now => m.change id (·.tick now)
  | .swapped id result => m.change id (·.swapped result)
  | .reread id result => m.change id (·.reread result)
  | .release id => { m with registry := m.registry.release id }
  | .finish id => m.change id (·.finish)
  | .stop id => if m.isCancelled then m.change id (·.cancel) else m
  | .cancel => m.cancel
  | .drain => if m.isCancelled then m.shutDown.2 else m

end Manager

/-!
# What a step does to one renewal
-/

def Renewal.touch (r : Renewal) : Renewal :=
  { r with touches := r.touches + 1 }

def Renewal.enter (r : Renewal) (phase : Renewal.Phase) : Renewal :=
  { r with phase }

/-- The renewal with the number `id` becomes another one by an event. Nothing
but a claim that was asked for counts as a touch, and only these events lead
from one phase to another. -/
inductive Renewal.Move (m : Manager) (id : Nat) :
    Manager.Event -> Renewal -> Renewal -> Prop where
  | stay (e : Manager.Event) (r : Renewal) : Move m id e r r
  | touched {now : Nat} {lease : Lease} {r : Renewal} :
      m.isCancelled = false -> m.registry.running? lease.key = some id ->
      Move m id (.ensure now lease) r r.touch
  | ticked {now : Nat} {r : Renewal} :
      r.phase = .waiting ->
      Move m id (.tick id now) r { r.enter .swapping with ticker := r.ticker.delay now }
  | answered {result : Except StoreError WriteResult} {r : Renewal} :
      r.phase = .swapping ->
      Move m id (.swapped id result) r (r.enter .waiting)
  | doubted {key : String} {expected actual : Option String} {r : Renewal} :
      r.phase = .swapping ->
      Move m id (.swapped id (.error (.compareFailed key expected actual))) r
        (r.enter (.rereading r.touches))
  | undecided {e : StoreError} {seen : Nat} {r : Renewal} :
      r.phase = .rereading seen ->
      Move m id (.reread id (.error e)) r (r.enter .waiting)
  | confirmed {found : ReadResult} {seen : Nat} {r : Renewal} :
      r.phase = .rereading seen ->
      found.entry.map (·.value) = some r.lease.owner ->
      Move m id (.reread id (.ok found)) r (r.enter .waiting)
  | lost {found : ReadResult} {seen : Nat} {r : Renewal} :
      r.phase = .rereading seen ->
      found.entry.map (·.value) ≠ some r.lease.owner ->
      Move m id (.reread id (.ok found)) r (r.enter (.releasing seen))
  | kept {seen : Nat} {r : Renewal} :
      r.phase = .releasing seen -> r.touches ≠ seen ->
      Move m id (.release id) r (r.enter .waiting)
  | released {r : Renewal} :
      r.phase = .releasing r.touches ->
      Move m id (.release id) r (r.enter .released)
  | finished {r : Renewal} :
      r.phase = .released ->
      Move m id (.finish id) r (r.enter .ended)
  | stopped {r : Renewal} :
      m.isCancelled = true -> r.canCancel = true ->
      Move m id (.stop id) r (r.enter .ended)

namespace Renewal

variable {m : Manager} {id : Nat}

theorem move_tick (now : Nat) (r : Renewal) :
    Move m id (.tick id now) r (r.tick now) := by
  unfold tick
  split
  · rename_i hphase
    split
    · exact Move.ticked hphase
    · exact Move.stay _ r
  · exact Move.stay _ r

theorem move_swapped (result : Except StoreError WriteResult) (r : Renewal) :
    Move m id (.swapped id result) r (r.swapped result) := by
  unfold swapped
  split
  · rename_i hphase
    split
    · exact Move.doubted hphase
    · exact Move.answered hphase
  · exact Move.stay _ r

theorem move_reread (result : Except StoreError ReadResult) (r : Renewal) :
    Move m id (.reread id result) r (r.reread result) := by
  unfold reread
  split
  · rename_i seen hphase
    cases result with
    | error e =>
        exact Move.undecided hphase
    | ok found =>
        by_cases hown : found.entry.map (·.value) = some r.lease.owner
        · simp only [hown, if_true]
          exact Move.confirmed hphase hown
        · simp only [hown, if_false]
          exact Move.lost hphase hown
  · exact Move.stay _ r

theorem move_finish (r : Renewal) : Move m id (.finish id) r r.finish := by
  unfold finish
  split
  · rename_i hphase
    exact Move.finished hphase
  · exact Move.stay _ r

theorem move_cancel (r : Renewal) (h : m.isCancelled = true) :
    Move m id (.stop id) r r.cancel := by
  unfold cancel
  split
  · rename_i hphase
    exact Move.stopped h (by simp [canCancel, hphase])
  · rename_i hphase
    exact Move.stopped h (by simp [canCancel, hphase])
  · rename_i hphase
    exact Move.stopped h (by simp [canCancel, hphase])
  · exact Move.stay _ r

/-!
A renewal keeps its lease for life, and its touches are never taken back.
-/

theorem Move.lease_eq {e : Manager.Event} {r r' : Renewal}
    (h : Move m id e r r') : r'.lease = r.lease := by
  cases h <;> rfl

theorem Move.touches_le {e : Manager.Event} {r r' : Renewal}
    (h : Move m id e r r') : r.touches ≤ r'.touches := by
  cases h with
  | touched => exact Nat.le_succ _
  | _ => exact Nat.le_refl _

end Renewal

/-!
# What a step does to the registry
-/

namespace Registry

theorem renewal?_update (g : Registry) (id : Nat) (f : Renewal -> Renewal)
    (j : Nat) :
    (g.update id f).renewal? j = if id = j then (g.renewal? j).map f
      else g.renewal? j := by
  simp [update, renewal?, Array.getElem?_modify]

@[simp] theorem entries_update (g : Registry) (id : Nat)
    (f : Renewal -> Renewal) :
    (g.update id f).entries = g.entries := rfl

theorem running?_eq_some_iff {g : Registry} {key : String} {id : Nat} :
    g.running? key = some id <->
      g.entries[key]? = some id ∧ exists r, g.renewal? id = some r ∧
        r.phase ≠ .ended := by
  unfold running? isRunning
  rw [Option.filter_eq_some_iff]
  cases g.renewal? id with
  | none =>
      simp
  | some r =>
      simp [Renewal.isEnded]

def begin (g : Registry) (now : Nat) (lease : Lease) : Registry :=
  { entries := g.entries.insert lease.key g.renewals.size
    renewals := g.renewals.push (.start now lease) }

theorem renewal?_begin (g : Registry) (now : Nat) (lease : Lease) (j : Nat) :
    (g.begin now lease).renewal? j =
      if j = g.renewals.size then some (.start now lease)
      else g.renewal? j := by
  simp [begin, renewal?, Array.getElem?_push]

theorem entries_begin (g : Registry) (now : Nat) (lease : Lease)
    (key : String) :
    (g.begin now lease).entries[key]? =
      if lease.key = key then some g.renewals.size else g.entries[key]? := by
  simp [begin, Std.ExtTreeMap.getElem?_insert]

theorem ensure_cases (g : Registry) (isShutDown : Bool) (now : Nat)
    (lease : Lease) :
    (isShutDown = true ∧ g.ensure isShutDown now lease = (none, g)) ∨
      (isShutDown = false ∧ exists id, g.running? lease.key = some id ∧
        g.ensure isShutDown now lease = (none, g.update id Renewal.touch)) ∨
      (isShutDown = false ∧ g.running? lease.key = none ∧
        g.ensure isShutDown now lease =
          (some g.renewals.size, g.begin now lease)) := by
  cases isShutDown with
  | true =>
      exact Or.inl ⟨rfl, rfl⟩
  | false =>
      cases hrunning : g.running? lease.key with
      | some id =>
          exact Or.inr (Or.inl ⟨rfl, id, rfl, by simp [ensure, hrunning]; rfl⟩)
      | none =>
          exact Or.inr (Or.inr ⟨rfl, rfl, by simp [ensure, hrunning, begin]⟩)

def abandon (g : Registry) (id : Nat) (key : String) : Registry :=
  { g with entries := if g.entries[key]? = some id then g.entries.erase key else g.entries }.update
    id (·.enter .released)

theorem renewal?_abandon (g : Registry) (id : Nat) (key : String) (j : Nat) :
    (g.abandon id key).renewal? j =
      if id = j then (g.renewal? j).map (·.enter .released) else g.renewal? j :=
  renewal?_update _ id _ j

theorem entries_abandon (g : Registry) (id : Nat) (key k : String) :
    (g.abandon id key).entries[k]? =
      if key = k ∧ g.entries[key]? = some id then none else g.entries[k]? := by
  unfold abandon
  rw [entries_update]
  by_cases hid : g.entries[key]? = some id
  · simp [hid, Std.ExtTreeMap.getElem?_erase]
  · simp [hid]

theorem release_cases (g : Registry) (id : Nat) :
    (g.release id = g ∧ forall r seen, g.renewal? id = some r ->
      r.phase ≠ .releasing seen) ∨
      exists r seen, g.renewal? id = some r ∧ r.phase = .releasing seen ∧
        ((r.touches ≠ seen ∧ g.release id = g.update id (·.enter .waiting)) ∨
          (r.touches = seen ∧ g.release id = g.abandon id r.lease.key)) := by
  unfold release
  cases hr : g.renewal? id with
  | none =>
      exact Or.inl ⟨rfl, by simp⟩
  | some r =>
      cases hphase : r.phase with
      | releasing seen =>
          refine Or.inr ⟨r, seen, rfl, hphase, ?_⟩
          by_cases htouches : r.touches = seen
          · exact Or.inr ⟨htouches, by simp [hphase, htouches]; rfl⟩
          · exact Or.inl ⟨htouches, by simp [hphase, htouches]; rfl⟩
      | _ =>
          refine Or.inl ⟨by simp [hphase], ?_⟩
          intro r' seen hr'
          rw [← Option.some.inj hr', hphase]
          simp

end Registry

/-!
# What a step does to the manager

The registry stays as it is, has one renewal moved, gets a new renewal, loses an
abandoned one, or is emptied after a cancellation. A step never turns a
cancellation back and leaves the settings alone.
-/

namespace Manager

@[simp] theorem settings_step (m : Manager) (e : Event) :
    (m.step e).settings = m.settings := by
  cases e with
  | stop | drain =>
      simp only [step]
      split <;> rfl
  | _ => rfl

theorem isCancelled_step (m : Manager) (e : Event) :
    (m.step e).isCancelled = m.isCancelled ∨ (m.step e).isCancelled = true := by
  cases e with
  | stop | drain =>
      simp only [step]
      split
      · rename_i hcancelled
        exact Or.inr (by simp [change, shutDown, hcancelled])
      · exact Or.inl rfl
  | cancel => exact Or.inr rfl
  | _ => exact Or.inl rfl

theorem step_cases (m : Manager) (e : Event) :
    (m.step e).registry = m.registry ∨
      (exists id f, (m.step e).registry = m.registry.update id f ∧
        forall r, m.registry.renewal? id = some r ->
          Renewal.Move m id e r (f r)) ∨
      (exists now lease, e = .ensure now lease ∧ m.isCancelled = false ∧
        m.registry.running? lease.key = none ∧
        (m.step e).registry = m.registry.begin now lease) ∨
      (exists id r, e = .release id ∧ m.registry.renewal? id = some r ∧
        r.phase = .releasing r.touches ∧
        (m.step e).registry = m.registry.abandon id r.lease.key) ∨
      (e = .drain ∧ m.isCancelled = true ∧
        (m.step e).registry = { m.registry with entries := ∅ }) := by
  cases e with
  | ensure now lease =>
      rcases m.registry.ensure_cases m.isCancelled now lease with
        ⟨_, hensure⟩ | ⟨hcancelled, id, hrunning, hensure⟩ | ⟨hcancelled,
          hrunning, hensure⟩
      · exact Or.inl (by simp [step, hensure])
      · exact Or.inr (Or.inl ⟨id, Renewal.touch, by simp [step, hensure],
          fun r _ => Renewal.Move.touched hcancelled hrunning⟩)
      · exact Or.inr (Or.inr (Or.inl
          ⟨now, lease, rfl, hcancelled, hrunning, by simp [step, hensure]⟩))
  | tick id now =>
      exact Or.inr (Or.inl ⟨id, _, rfl, fun r _ => Renewal.move_tick now r⟩)
  | swapped id result =>
    exact Or.inr (Or.inl ⟨id, _, rfl, fun r _ => Renewal.move_swapped result r⟩)
  | reread id result => exact Or.inr (Or.inl ⟨id, _, rfl, fun r _ => Renewal.move_reread result r⟩)
  | finish id =>
      exact Or.inr (Or.inl ⟨id, _, rfl, fun r _ => Renewal.move_finish r⟩)
  | release id =>
      rcases m.registry.release_cases id with ⟨h, _⟩ | ⟨r, seen, hr, hphase, h⟩
      · exact Or.inl h
      · rcases h with ⟨htouches, h⟩ | ⟨htouches, h⟩
        · refine Or.inr (Or.inl ⟨id, _, h, ?_⟩)
          intro r' hr'
          rw [hr] at hr'
          cases hr'
          exact Renewal.Move.kept hphase htouches
        · subst htouches
          exact Or.inr (Or.inr (Or.inr (Or.inl ⟨id, r, rfl, hr, hphase, h⟩)))
  | stop id =>
      cases hcancelled : m.isCancelled with
      | true =>
          exact Or.inr (Or.inl ⟨id, Renewal.cancel,
            by simp [step, hcancelled, change], fun r _ =>
              Renewal.move_cancel r hcancelled⟩)
      | false =>
          exact Or.inl (by simp [step, hcancelled])
  | cancel => exact Or.inl rfl
  | drain =>
      cases hcancelled : m.isCancelled with
      | true =>
          exact Or.inr (Or.inr (Or.inr (Or.inr
            ⟨rfl, rfl, by simp [step, hcancelled, shutDown, Registry.drain]⟩)))
      | false =>
          exact Or.inl (by simp [step, hcancelled])

end Manager
end FairLease
