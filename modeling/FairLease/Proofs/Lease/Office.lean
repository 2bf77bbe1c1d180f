import FairLease.Proofs.Lease.Handshake

/-!
# Managers and their callers

A manager serves any number of calls, each of which goes on one step at a time
while its renewals do so too. What the store answers to a call or a renewal is
part of the event and not restricted here.
-/

namespace FairLease

/-- A manager with every call that was ever made to it. -/
structure Office where
  manager : Manager
  calls : Array Admission

namespace Office

inductive Event where
  | begin (uid cidr : String)
  | listed (j : Nat) (page : Except StoreError ScanResult)
  | created (j : Nat) (result : Except StoreError WriteResult)
  /-- A call whose claim is held has its renewal ensured and returns. -/
  | register (j now : Nat)
  | manage (e : Manager.Event)

def setCall (o : Office) (j : Nat) (f : Admission -> Admission) : Office :=
  { o with calls := o.calls.modify j f }

def step (o : Office) : Event -> Office
  | .begin uid cidr => { o with calls := o.calls.push (o.manager.attempt uid cidr) }
  | .listed j page => o.setCall j (·.listed o.manager.settings page)
  | .created j result => o.setCall j (·.created result)
  | .register j now =>
      match o.calls[j]? with
      | none => o
      | some a =>
          match a.phase with
          | .registering =>
            { o.setCall j (·.registered) with manager := (o.manager.register now a).2 }
          | _ => o
  | .manage e => { o with manager := o.manager.step e }

def after (start : Office) (steps : List Event) (n : Nat) : Office :=
  stateAt step start steps n

/-!
# What a step does to the manager

A call has to do with the renewals only when it has its own ensured.
-/

theorem register_eq_step (m : Manager) (now : Nat) (a : Admission) :
    (m.register now a).2 = m.step (.ensure now (m.lease a)) := rfl

theorem step_register_of_registering {o : Office} {j now : Nat} {a : Admission}
    (ha : o.calls[j]? = some a) (hphase : a.phase = .registering) :
    o.step (.register j now) =
      { o.setCall j (·.registered) with manager := (o.manager.register now a).2 } := by
  simp [step, ha, hphase]

theorem step_register_of_not_registering {o : Office} {j now : Nat}
    (h : forall a, o.calls[j]? = some a -> a.phase ≠ .registering) :
    o.step (.register j now) = o := by
  simp only [step]
  split
  · rfl
  · rename_i a ha
    split
    · rename_i hphase
      exact absurd hphase (h a ha)
    · rfl

theorem step_register_cases (o : Office) (j now : Nat) :
    o.step (.register j now) = o ∨
      exists a, o.calls[j]? = some a ∧ a.phase = .registering ∧
        o.step (.register j now) =
          { o.setCall j (·.registered) with manager := (o.manager.register now a).2 } := by
  by_cases h : exists a, o.calls[j]? = some a ∧ a.phase = .registering
  · rcases h with ⟨a, ha, hphase⟩
    exact Or.inr ⟨a, ha, hphase, step_register_of_registering ha hphase⟩
  · exact Or.inl (step_register_of_not_registering fun a ha hphase =>
      h ⟨a, ha, hphase⟩)

theorem manager_step_cases (o : Office) (e : Event) :
    (o.step e).manager = o.manager ∨
      exists e', (o.step e).manager = o.manager.step e' ∧
        (e = .manage e' ∨ exists now lease, e' = .ensure now lease) := by
  cases e with
  | begin | listed | created => exact Or.inl rfl
  | register j now =>
      rcases o.step_register_cases j now with hsame | ⟨a, _, _, hstep⟩
      · exact Or.inl (by rw [hsame])
      · exact Or.inr ⟨.ensure now (o.manager.lease a),
          by rw [hstep, register_eq_step], Or.inr ⟨now, _, rfl⟩⟩
  | manage e => exact Or.inr ⟨e, rfl, Or.inl rfl⟩

/-!
# Runs
-/

section

variable {start : Office} {steps : List Event}

theorem after_succ {n : Nat} {e : Event} (h : steps[n]? = some e) :
    start.after steps (n + 1) = (start.after steps n).step e :=
  stateAt_succ h

theorem after_cases (start : Office) (steps : List Event) (n : Nat) :
    (steps[n]? = none ∧ start.after steps (n + 1) = start.after steps n) ∨
      exists e, steps[n]? = some e ∧
        start.after steps (n + 1) = (start.after steps n).step e := by
  cases h : steps[n]? with
  | none => exact Or.inl ⟨rfl, stateAt_succ_of_none h⟩
  | some e => exact Or.inr ⟨e, rfl, after_succ h⟩

/-- What every step of a manager keeps, stays as it is in an office. -/
theorem manager_keeps {P : Manager -> Prop}
    (hstep : forall m e, P m -> P (m.step e)) {m n : Nat} (hmn : m ≤ n)
    (h : P (start.after steps m).manager) :
    P (start.after steps n).manager := by
  refine stateAt_related (R := fun o p : Office => P o.manager -> P p.manager)
    (fun _ ho => ho) (fun hop hpq ho => hpq (hop ho)) ?_ start steps hmn h
  intro o e ho
  rcases o.manager_step_cases e with hsame | ⟨e', he', _⟩
  · rw [hsame]
    exact ho
  · rw [he']
    exact hstep _ e' ho

end

end Office
end FairLease
