import FairLease.Proofs.Fleet.Renewed
import FairLease.Proofs.Store.Survival

/-!
# A manager among others

A manager shares its store with others, who may do there whatever they like, and
its renewals may fail to reach the store. Its own calls and renewals go on as
those of a fleet do that has no other member.
-/

namespace FairLease

namespace Manager

def Event.renewal? : Event -> Option Nat
  | .ensure _ _ => none
  | .tick id _ => some id
  | .swapped id _ => some id
  | .reread id _ => some id
  | .release id => some id
  | .finish id => some id
  | .stop id => some id
  | .cancel => none
  | .drain => none

theorem renewal?_step_of_ne {m : Manager} {e : Event} {id id' : Nat}
    {r : Renewal} (he : e.renewal? = some id') (hne : id' ≠ id)
    (hr : m.renewal? id = some r) :
    (m.step e).renewal? id = some r := by
  rcases step_renewal e hr with ⟨r', hr', hmove⟩
  rw [hr']
  cases hmove with
  | stay => rfl
  | touched => cases he
  | _ => exact absurd (Option.some.inj he).symm hne

end Manager

namespace Fleet

open MemoryStore

/-!
# Deeds
-/

inductive Deed where
  | act (a : Act Unit)
  | fail (id : Nat) (e : StoreError)
  | write (c : Command)
  | read (key : String)
  | scan (r : ScanRequest)

def fail (f : Fleet Unit) (id : Nat) (e : StoreError) : Fleet Unit :=
  let m := f.members ()
  match m.manager.renewal? id, m.replies id with
  | some r, none =>
      match r.phase with
      | .swapping => f.setMember () (m.post id (some (.swapped (.error e))))
      | .rereading _ => f.setMember () (m.post id (some (.found (.error e))))
      | _ => f
  | _, _ => f

def perform (f : Fleet Unit) : Deed -> Fleet Unit
  | .act a => f.next a
  | .fail id e => f.fail id e
  | .write c => f.setStore (f.store.write f.now c).2
  | .read key => f.setStore (f.store.read f.now key).2
  | .scan r => f.setStore (f.store.scan f.now r).2

def course (start : Fleet Unit) (deeds : List Deed) (n : Nat) : Fleet Unit :=
  stateAt perform start deeds n

theorem fail_cases (f : Fleet Unit) (id : Nat) (e : StoreError) :
    f.fail id e = f ∨ exists r reply,
      (f.members ()).manager.renewal? id = some r ∧
      f.fail id e = f.setMember () ((f.members ()).post id (some reply)) := by
  cases hr : (f.members ()).manager.renewal? id with
  | none => exact Or.inl (by simp only [fail, hr])
  | some r =>
      cases hreply : (f.members ()).replies id with
      | some reply => exact Or.inl (by simp only [fail, hr, hreply])
      | none =>
          cases hphase : r.phase with
          | swapping | rereading =>
              exact Or.inr ⟨r, _, rfl,
                by simp only [fail, hr, hreply, hphase]; rfl⟩
          | _ => exact Or.inl (by simp only [fail, hr, hreply, hphase])

theorem now_perform (f : Fleet Unit) (d : Deed) :
    (f.perform d).now = f.now ∨ exists nanos, d = .act (.elapse nanos) := by
  cases d with
  | act a =>
      rcases (step_next f a).now with hnow | ⟨nanos, ha, _⟩
      · exact Or.inl hnow
      · exact Or.inr ⟨nanos, by rw [ha]⟩
  | fail id e =>
      rcases f.fail_cases id e with hsame | ⟨_, _, _, hpost⟩
      · exact Or.inl (by rw [perform, hsame])
      · exact Or.inl (by rw [perform, hpost, now_setMember])
  | write | read | scan => exact Or.inl rfl

theorem now_le_perform (f : Fleet Unit) (d : Deed) :
    f.now ≤ (f.perform d).now := by
  rcases f.now_perform d with hnow | ⟨nanos, rfl⟩
  · rw [hnow]
  · exact Nat.le_add_right _ _

theorem manager_perform_cases (f : Fleet Unit) (d : Deed) :
    ((f.perform d).members ()).manager = (f.members ()).manager ∨
      exists e, ((f.perform d).members ()).manager =
        (f.members ()).manager.step e := by
  cases d with
  | act a => exact ((step_next f a).member ()).manager_cases
  | fail id e =>
      rcases f.fail_cases id e with hsame | ⟨_, _, _, hpost⟩
      · exact Or.inl (by rw [perform, hsame])
      · exact Or.inl (by rw [perform, hpost, members_setMember, if_pos rfl,
          Member.manager_post])
  | write | read | scan => exact Or.inl rfl

/-!
# Sound members

The leases that a manager renews live as long as its settings say, and nobody
answers a renewal that is not there.
-/

structure Member.IsSound (s : ClaimSettings) (m : Member) : Prop where
  settings : m.manager.settings = s
  wellFormed : m.manager.WellFormed
  ttlMs : forall id r, m.manager.renewal? id = some r -> r.lease.ttlMs = s.ttlMs
  silent : forall id, m.manager.renewal? id = none -> m.replies id = none

section

variable {s : ClaimSettings} {m : Member}

theorem Member.IsSound.step (h : m.IsSound s) {e : Manager.Event}
    (he : forall now lease, e = .ensure now lease -> lease.ttlMs = s.ttlMs) :
    (m.step e).IsSound s where
  settings := by rw [manager_step, Manager.settings_step, h.settings]
  wellFormed := Manager.wellFormed_step h.wellFormed e
  ttlMs := by
    intro id r' hr'
    rcases Manager.step_renewal_cases hr' with
      ⟨r, hr, hmove⟩ | ⟨now, lease, hensure, _, _, _, rfl⟩
    · rw [hmove.lease_eq, h.ttlMs id r hr]
    · exact he now lease hensure
  silent := by
    intro id hnone
    apply h.silent
    cases hr : m.manager.renewal? id with
    | none => rfl
    | some r =>
        rcases Manager.step_renewal e hr with ⟨r', hr', _⟩
        rw [manager_step, hr'] at hnone
        cases hnone

theorem Member.IsSound.post (h : m.IsSound s) {id : Nat} {reply : Option Reply}
    (hreply : m.manager.renewal? id = none -> reply = none) :
    (m.post id reply).IsSound s where
  settings := h.settings
  wellFormed := h.wellFormed
  ttlMs := h.ttlMs
  silent := by
    intro id' hnone
    by_cases hid : id = id'
    · subst hid
      rw [replies_post_self, hreply hnone]
    · rw [replies_post_of_ne hid, h.silent id' hnone]

theorem Member.Move.isSound {f : Fleet Unit} {store : MemoryStore}
    {a : Act Unit} {m' : Member} (hmove : Member.Move f store () a m m')
    (h : m.IsSound s) : m'.IsSound s := by
  cases hmove with
  | stay => exact h
  | ensured =>
      apply h.step
      rintro now lease ⟨⟩
      rw [Manager.lease, h.settings]
  | @answered id reply =>
      refine (h.step ?_).post fun _ => rfl
      cases reply <;> rintro now lease ⟨⟩
  | worked he =>
      apply h.step
      rcases he with rfl | rfl | rfl <;> rintro now lease ⟨⟩
  | swapped hr | looked hr =>
      apply h.post
      intro hnone
      rw [hr] at hnone
      cases hnone
  | stopped =>
      refine (h.step ?_).post fun _ => rfl
      rintro now lease ⟨⟩
  | cancelled | drained =>
      apply h.step
      rintro now lease ⟨⟩

theorem isSound_perform {f : Fleet Unit} (h : (f.members ()).IsSound s)
    (d : Deed) :
    ((f.perform d).members ()).IsSound s := by
  cases d with
  | act a => exact ((step_next f a).member ()).isSound h
  | fail id e =>
      rcases f.fail_cases id e with hsame | ⟨r, reply, hr, hpost⟩
      · rw [perform, hsame]
        exact h
      · rw [perform, hpost, members_setMember, if_pos rfl]
        apply h.post
        intro hnone
        rw [hr] at hnone
        cases hnone
  | write | read | scan => exact h

theorem isSound_idle (s : ClaimSettings) :
    (((idle s : Fleet Unit)).members ()).IsSound s where
  settings := rfl
  wellFormed := Manager.wellFormed_of_empty rfl
  ttlMs := by
    intro id r hr
    simp [idle, Manager.renewal?, Registry.empty, Registry.renewal?] at hr
  silent := fun _ _ => rfl

end

/-!
# Courses
-/

section

variable {start : Fleet Unit} {deeds : List Deed}

theorem course_succ {n : Nat} {d : Deed} (h : deeds[n]? = some d) :
    start.course deeds (n + 1) = (start.course deeds n).perform d :=
  stateAt_succ h

theorem course_cases (start : Fleet Unit) (deeds : List Deed) (n : Nat) :
    (deeds[n]? = none ∧ start.course deeds (n + 1) = start.course deeds n) ∨
      exists d, deeds[n]? = some d ∧
        start.course deeds (n + 1) = (start.course deeds n).perform d := by
  cases h : deeds[n]? with
  | none => exact Or.inl ⟨rfl, stateAt_succ_of_none h⟩
  | some d => exact Or.inr ⟨d, rfl, course_succ h⟩

theorem isSound_course {s : ClaimSettings}
    (hstart : (start.members ()).IsSound s) (n : Nat) :
    ((start.course deeds n).members ()).IsSound s :=
  stateAt_invariant (P := fun f : Fleet Unit => (f.members ()).IsSound s) hstart
    (fun _ d hf => isSound_perform hf d) deeds n

theorem now_le_course {m n : Nat} (hmn : m ≤ n) :
    (start.course deeds m).now ≤ (start.course deeds n).now :=
  stateAt_related (R := fun f g : Fleet Unit => f.now ≤ g.now)
    (fun _ => Nat.le_refl _) Nat.le_trans now_le_perform start deeds hmn

theorem isCancelled_course {m n : Nat} (hmn : m ≤ n)
    (h : ((start.course deeds n).members ()).manager.isCancelled = false) :
    ((start.course deeds m).members ()).manager.isCancelled = false := by
  refine stateAt_related
    (R := fun f g : Fleet Unit => (g.members ()).manager.isCancelled = false ->
      (f.members ()).manager.isCancelled = false)
    (fun _ hf => hf) (fun hfg hgh hh => hfg (hgh hh)) ?_ start deeds hmn h
  intro f d hg
  rcases f.manager_perform_cases d with hsame | ⟨e, hstep⟩
  · rw [hsame] at hg
    exact hg
  · rw [hstep] at hg
    exact Manager.isCancelled_of_step hg

theorem renewal?_course {m n id : Nat} (hmn : m ≤ n)
    (h : ((start.course deeds n).members ()).manager.renewal? id = none) :
    ((start.course deeds m).members ()).manager.renewal? id = none := by
  refine stateAt_related
    (R := fun f g : Fleet Unit => (g.members ()).manager.renewal? id = none ->
      (f.members ()).manager.renewal? id = none)
    (fun _ hf => hf) (fun hfg hgh hh => hfg (hgh hh)) ?_ start deeds hmn h
  intro f d hg
  rcases f.manager_perform_cases d with hsame | ⟨e, hstep⟩
  · rw [hsame] at hg
    exact hg
  · cases hr : (f.members ()).manager.renewal? id with
    | none => rfl
    | some r =>
        rcases Manager.step_renewal e hr with ⟨r', hr', _⟩
        rw [hstep, hr'] at hg
        cases hg

end

/-!
# One claim among others

A claim has its entry in the store and its renewal in the registry. Neither of
them is touched by what is done for the sake of other claims.
-/

/-- Nobody but the manager's own renewals and calls changes what is stored under
the key. -/
def Deed.LeavesAlone (f : Fleet Unit) (key : String) : Deed -> Prop
  | .act (.delete k) => k ≠ key
  | .write c => c.key ≠ key ∨ exists e, (f.store.write f.now c).1 = .error e
  | _ => True

theorem Step.spares_cases {s : ClaimSettings} {f g : Fleet Unit} {a : Act Unit}
    {key uid : String} {deadline : Nat} (h : Step f a g)
    (hsound : (f.members ()).IsSound s)
    (halone : (Deed.act a).LeavesAlone f key)
    (hleased : f.store.IsLeased key uid deadline) (hnow : f.now < deadline) :
    Spares f.now key f.store g.store ∨
      exists id r, a = .renew () id ∧
        (f.members ()).manager.renewal? id = some r ∧
        r.phase = .swapping ∧ r.lease.key = key ∧ r.lease.owner = uid ∧
        g.store = (f.store.write f.now
          (.compareAndSwapWithTtl key uid uid s.ttlMs)).2 := by
  cases h with
  | listed => exact Or.inl (spares_scan f.store _)
  | created => exact Or.inl (spares_create f.store _ _ _)
  | @swapped i id r hr hphase =>
      rw [store_setMember, store_setStore, Renewal.command,
        hsound.ttlMs id r hr]
      by_cases hown : r.lease.key = key ∧ r.lease.owner = uid
      · rcases hown with ⟨hkey, howner⟩
        exact Or.inr ⟨id, r, rfl, hr, hphase, hkey, howner,
          by rw [hkey, howner]⟩
      · exact Or.inl (spares_renew_of_ne hleased hnow
          (Decidable.not_and_iff_not_or_not.mp hown))
  | looked => exact Or.inl (spares_read f.store _)
  | swept => exact Or.inl (spares_expireDue f.store)
  | deleted => exact Or.inl (spares_delete f.store halone)
  | _ => exact Or.inl (spares_refl f.store)

theorem spares_perform_cases {s : ClaimSettings} {f : Fleet Unit} {d : Deed}
    {key uid : String} {deadline : Nat} (hsound : (f.members ()).IsSound s)
    (halone : d.LeavesAlone f key) (hleased : f.store.IsLeased key uid deadline)
    (hnow : f.now < deadline) :
    Spares f.now key f.store (f.perform d).store ∨
      exists id r, d = .act (.renew () id) ∧
        (f.members ()).manager.renewal? id = some r ∧
        r.phase = .swapping ∧ r.lease.key = key ∧ r.lease.owner = uid ∧
        (f.perform d).store =
          (f.store.write f.now
            (.compareAndSwapWithTtl key uid uid s.ttlMs)).2 := by
  cases d with
  | act a =>
      rcases (step_next f a).spares_cases hsound halone hleased hnow with
        hspares | ⟨id, r, rfl, hrenewal⟩
      · exact Or.inl hspares
      · exact Or.inr ⟨id, r, rfl, hrenewal⟩
  | fail id e =>
      rcases f.fail_cases id e with hsame | ⟨_, _, _, hpost⟩
      · rw [perform, hsame]
        exact Or.inl (spares_refl f.store)
      · rw [perform, hpost, store_setMember]
        exact Or.inl (spares_refl f.store)
  | write c => exact Or.inl (spares_write f.store c halone)
  | read k => exact Or.inl (spares_read f.store k)
  | scan r => exact Or.inl (spares_scan f.store r)

structure Member.Renews (m : Member) (id : Nat) (lease : Lease)
    (phase : Renewal.Phase) (ticker : Ticker) (reply : Option Reply) :
    Prop where
  known : exists touches, m.manager.renewal? id =
    some ⟨lease, ticker, touches, phase⟩
  pending : m.replies id = reply

theorem Member.Move.renews {f : Fleet Unit} {store : MemoryStore} {a : Act Unit}
    {m m' : Member} {id : Nat} {lease : Lease} {phase : Renewal.Phase}
    {ticker : Ticker} {reply : Option Reply}
    (hmove : Member.Move f store () a m m')
    (hcancelled : m'.manager.isCancelled = false)
    (h : m.Renews id lease phase ticker reply) (ha : a ≠ .renew () id) :
    m'.Renews id lease phase ticker reply := by
  rcases h with ⟨⟨touches, hr⟩, hreply⟩
  have hne {id' : Nat} (hact : a = .renew () id') : id' ≠ id := by
    rintro rfl
    exact ha hact
  cases hmove with
  | stay => exact ⟨⟨touches, hr⟩, hreply⟩
  | ensured =>
      rcases Manager.step_renewal _ hr with ⟨r', hr', hmove'⟩
      cases hmove' with
      | stay => exact ⟨⟨touches, hr'⟩, hreply⟩
      | touched => exact ⟨⟨touches + 1, hr'⟩, hreply⟩
  | @answered id' reply' =>
      have he : (reply'.event id').renewal? = some id' := by
        cases reply' <;> rfl
      exact ⟨⟨touches, Manager.renewal?_step_of_ne he (hne rfl) hr⟩,
        (replies_post_of_ne (hne rfl) none).trans hreply⟩
  | @worked id' e _ he =>
      have he' : e.renewal? = some id' := by rcases he with
        rfl | rfl | rfl <;> rfl
      exact ⟨⟨touches, Manager.renewal?_step_of_ne he' (hne rfl) hr⟩, hreply⟩
  | swapped | looked =>
      exact ⟨⟨touches, hr⟩, (replies_post_of_ne (hne rfl) _).trans hreply⟩
  | stopped hstopped =>
      rw [Manager.isCancelled_of_step hcancelled] at hstopped
      cases hstopped
  | cancelled => cases hcancelled
  | drained =>
      rcases Manager.step_renewal .drain hr with ⟨r', hr', hmove'⟩
      cases hmove' with
      | stay => exact ⟨⟨touches, hr'⟩, hreply⟩

theorem renews_perform {f : Fleet Unit} {d : Deed} {id : Nat} {lease : Lease}
    {phase : Renewal.Phase} {ticker : Ticker} {reply : Option Reply}
    (hcancelled : ((f.perform d).members ()).manager.isCancelled = false)
    (h : (f.members ()).Renews id lease phase ticker reply)
    (hact : d ≠ .act (.renew () id)) (hfail : forall e, d ≠ .fail id e) :
    ((f.perform d).members ()).Renews id lease phase ticker reply := by
  cases d with
  | act a =>
      refine ((step_next f a).member ()).renews hcancelled h ?_
      rintro rfl
      exact hact rfl
  | fail id' e =>
      have hne : id' ≠ id := by
        rintro rfl
        exact hfail e rfl
      rcases f.fail_cases id' e with hsame | ⟨_, _, _, hpost⟩
      · rw [perform, hsame]
        exact h
      · rw [perform, hpost, members_setMember, if_pos rfl]
        exact ⟨h.known, (replies_post_of_ne hne _).trans h.pending⟩
  | write | read | scan => exact h

end Fleet
end FairLease
