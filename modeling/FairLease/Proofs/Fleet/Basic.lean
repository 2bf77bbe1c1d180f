import Mathlib.Logic.Function.Basic
import FairLease.Proofs.Claim.Admission
import FairLease.Proofs.Lease.Entries
import FairLease.Proofs.Run
import FairLease.Proofs.Store.History

/-!
# Managers on one store

Any number of managers share one in-memory store. It is open who goes on next: a
call to one of them, one of their renewals, the clock, or somebody who deletes a
key from outside.
-/

namespace FairLease

inductive Fleet.Reply where
  | swapped (result : Except StoreError WriteResult)
  | found (result : Except StoreError ReadResult)

structure Fleet.Member where
  manager : Manager
  replies : Nat -> Option Fleet.Reply

structure Fleet.Call (ι : Type) where
  member : ι
  admission : Admission

structure Fleet (ι : Type) where
  now : Nat
  store : MemoryStore
  members : ι -> Fleet.Member
  calls : Array (Fleet.Call ι)

namespace Fleet

open MemoryStore

inductive Act (ι : Type) where
  | begin (i : ι) (uid cidr : String)
  /-- A call lists a page, creates its claim, or has its renewal ensured. -/
  | proceed (j : Nat)
  /-- A renewal takes up an answer, or does what comes next for it. -/
  | renew (i : ι) (id : Nat)
  /-- A renewal notices that its manager has been cancelled. -/
  | stop (i : ι) (id : Nat)
  | cancel (i : ι)
  | drain (i : ι)
  | elapse (nanos : Nat)
  | sweep
  | delete (key : String)

/-!
# Acts

The store does one thing at a time, and so does the registry of a manager. What
a call does with an answer concerns nobody else, but a renewal may be asked for
its claim between the answer of the store and its taking it up.
-/

def Reply.event (id : Nat) : Reply -> Manager.Event
  | swapped result => .swapped id result
  | found result => .reread id result

def Member.step (m : Member) (e : Manager.Event) : Member :=
  { m with manager := m.manager.step e }

def Member.post (m : Member) (id : Nat) (reply : Option Reply) : Member :=
  { m with replies := Function.update m.replies id reply }

section

variable {ι : Type}

def settings (f : Fleet ι) (c : Call ι) : ClaimSettings :=
  (f.members c.member).manager.settings

def setStore (f : Fleet ι) (store : MemoryStore) : Fleet ι :=
  { f with store }

def setCall (f : Fleet ι) (j : Nat) (a : Admission) : Fleet ι :=
  { f with calls := f.calls.modify j (fun c => { c with admission := a }) }

@[simp] theorem now_setStore (f : Fleet ι) (s : MemoryStore) :
    (f.setStore s).now = f.now := rfl

@[simp] theorem store_setStore (f : Fleet ι) (s : MemoryStore) :
    (f.setStore s).store = s := rfl

@[simp] theorem members_setStore (f : Fleet ι) (s : MemoryStore) :
    (f.setStore s).members = f.members := rfl

@[simp] theorem calls_setStore (f : Fleet ι) (s : MemoryStore) :
    (f.setStore s).calls = f.calls := rfl

@[simp] theorem now_setCall (f : Fleet ι) (j : Nat) (a : Admission) :
    (f.setCall j a).now = f.now := rfl

@[simp] theorem store_setCall (f : Fleet ι) (j : Nat) (a : Admission) :
    (f.setCall j a).store = f.store := rfl

@[simp] theorem members_setCall (f : Fleet ι) (j : Nat) (a : Admission) :
    (f.setCall j a).members = f.members := rfl

theorem calls_setCall (f : Fleet ι) (j : Nat) (a : Admission) (k : Nat) :
    (f.setCall j a).calls[k]? =
      if j = k then (f.calls[k]?).map (fun c => { c with admission := a }) else f.calls[k]? := by
  simp [setCall, Array.getElem?_modify]

@[simp] theorem size_setCall (f : Fleet ι) (j : Nat) (a : Admission) :
    (f.setCall j a).calls.size = f.calls.size := by
  simp [setCall]

end

variable {ι : Type} [DecidableEq ι]

def setMember (f : Fleet ι) (i : ι) (m : Member) : Fleet ι :=
  { f with members := Function.update f.members i m }

@[simp] theorem now_setMember (f : Fleet ι) (i : ι) (m : Member) :
    (f.setMember i m).now = f.now := rfl

@[simp] theorem store_setMember (f : Fleet ι) (i : ι) (m : Member) :
    (f.setMember i m).store = f.store := rfl

@[simp] theorem calls_setMember (f : Fleet ι) (i : ι) (m : Member) :
    (f.setMember i m).calls = f.calls := rfl

theorem members_setMember (f : Fleet ι) (i : ι) (m : Member) (k : ι) :
    (f.setMember i m).members k = if k = i then m else f.members k := by
  simp [setMember, Function.update_apply]

def proceed (f : Fleet ι) (j : Nat) (c : Call ι) : Fleet ι :=
  match c.admission.phase with
  | .listing (.reading _ after) =>
      let (page, store) :=
        f.store.scan f.now (Listing.request (f.settings c) after)
      (f.setStore store).setCall j
        (c.admission.listed (f.settings c) (.ok page))
  | .creating =>
      let (result, store) :=
        f.store.write f.now (c.admission.command (f.settings c))
      (f.setStore store).setCall j (c.admission.created result)
  | .registering =>
      let m := f.members c.member
      (f.setMember c.member
        (m.step (.ensure f.now (m.manager.lease c.admission)))).setCall j
        c.admission.registered
  | _ => f

def renew (f : Fleet ι) (i : ι) (id : Nat) : Fleet ι :=
  let m := f.members i
  match m.manager.renewal? id, m.replies id with
  | none, _ => f
  | some _, some reply => f.setMember i ((m.step (reply.event id)).post id none)
  | some r, none =>
      match r.phase with
      | .waiting => f.setMember i (m.step (.tick id f.now))
      | .swapping =>
          let (result, store) := f.store.write f.now r.command
          (f.setStore store).setMember i (m.post id (some (.swapped result)))
      | .rereading _ =>
          let (found, store) := f.store.read f.now r.lease.key
          (f.setStore store).setMember i (m.post id (some (.found (.ok found))))
      | .releasing _ => f.setMember i (m.step (.release id))
      | .released => f.setMember i (m.step (.finish id))
      | .ended => f

def next (f : Fleet ι) : Act ι -> Fleet ι
  | .begin i uid cidr =>
      { f with calls := f.calls.push ⟨i, (f.members i).manager.attempt uid cidr⟩ }
  | .proceed j =>
      match f.calls[j]? with
      | none => f
      | some c => f.proceed j c
  | .renew i id => f.renew i id
  | .stop i id =>
      let m := f.members i
      if m.manager.isCancelled then
        f.setMember i ((m.step (.stop id)).post id none)
      else
        f
  | .cancel i => f.setMember i ((f.members i).step .cancel)
  | .drain i => f.setMember i ((f.members i).step .drain)
  | .elapse nanos => { f with now := f.now + nanos }
  | .sweep => f.setStore (f.store.expireDue f.now).2
  | .delete key => f.setStore (f.store.delete f.now key).2

def after (start : Fleet ι) (acts : List (Act ι)) (n : Nat) : Fleet ι :=
  stateAt next start acts n

/-- A fleet at its start: the store is empty, nobody has made a call, and each
manager was made with settings that keep claims under `root`. -/
structure IsFresh (root : String) (f : Fleet ι) : Prop where
  store : f.store = .empty
  calls : f.calls = #[]
  made : forall i, exists s, s.root = root ∧
    Manager.new s = .ok (f.members i).manager
  silent : forall i id, (f.members i).replies id = none

/-!
# What an act can do
-/

inductive Step (f : Fleet ι) : Act ι -> Fleet ι -> Prop where
  | idle (act : Act ι) : Step f act f
  | begun (i : ι) (uid cidr : String) :
      Step f (.begin i uid cidr)
        { f with calls := f.calls.push ⟨i, (f.members i).manager.attempt uid cidr⟩ }
  | listed {j : Nat} {c : Call ι} {found : Snapshot} {token : Option String} :
      f.calls[j]? = some c ->
      c.admission.phase = .listing (.reading found token) ->
      Step f (.proceed j)
        ((f.setStore (f.store.scan f.now
          (Listing.request (f.settings c) token)).2).setCall j
          (c.admission.listed (f.settings c)
            (.ok (f.store.scan f.now
              (Listing.request (f.settings c) token)).1)))
  | created {j : Nat} {c : Call ι} :
      f.calls[j]? = some c -> c.admission.phase = .creating ->
      Step f (.proceed j)
        ((f.setStore (f.store.write f.now
          (c.admission.command (f.settings c))).2).setCall j
          (c.admission.created
            (f.store.write f.now (c.admission.command (f.settings c))).1))
  | registered {j : Nat} {c : Call ι} :
      f.calls[j]? = some c -> c.admission.phase = .registering ->
      Step f (.proceed j)
        ((f.setMember c.member ((f.members c.member).step
          (.ensure f.now ((f.members c.member).manager.lease
            c.admission)))).setCall j c.admission.registered)
  | answered {i : ι} {id : Nat} {reply : Reply} :
      (f.members i).replies id = some reply ->
      Step f (.renew i id)
        (f.setMember i (((f.members i).step (reply.event id)).post id none))
  | worked {i : ι} {id : Nat} {e : Manager.Event} :
      e = .tick id f.now ∨ e = .release id ∨ e = .finish id ->
      (f.members i).replies id = none ->
      Step f (.renew i id) (f.setMember i ((f.members i).step e))
  | swapped {i : ι} {id : Nat} {r : Renewal} :
      (f.members i).manager.renewal? id = some r -> r.phase = .swapping ->
      Step f (.renew i id)
        ((f.setStore (f.store.write f.now r.command).2).setMember i
          ((f.members i).post id
            (some (.swapped (f.store.write f.now r.command).1))))
  | looked {i : ι} {id seen : Nat} {r : Renewal} :
      (f.members i).manager.renewal? id = some r -> r.phase = .rereading seen ->
      Step f (.renew i id)
        ((f.setStore (f.store.read f.now r.lease.key).2).setMember i
          ((f.members i).post id
            (some (.found (.ok (f.store.read f.now r.lease.key).1)))))
  | stopped {i : ι} {id : Nat} :
      (f.members i).manager.isCancelled = true ->
      Step f (.stop i id)
        (f.setMember i (((f.members i).step (.stop id)).post id none))
  | cancelled (i : ι) :
      Step f (.cancel i) (f.setMember i ((f.members i).step .cancel))
  | drained (i : ι) :
      Step f (.drain i) (f.setMember i ((f.members i).step .drain))
  | elapsed (nanos : Nat) : Step f (.elapse nanos) { f with now := f.now + nanos }
  | swept : Step f .sweep (f.setStore (f.store.expireDue f.now).2)
  | deleted (key : String) :
      Step f (.delete key) (f.setStore (f.store.delete f.now key).2)

theorem step_proceed {f : Fleet ι} {j : Nat} {c : Call ι}
    (hc : f.calls[j]? = some c) :
    Step f (.proceed j) (f.proceed j c) := by
  unfold proceed
  split
  · rename_i hphase
    exact Step.listed hc hphase
  · rename_i hphase
    exact Step.created hc hphase
  · rename_i hphase
    exact Step.registered hc hphase
  · exact Step.idle _

theorem step_renew (f : Fleet ι) (i : ι) (id : Nat) :
    Step f (.renew i id) (f.renew i id) := by
  simp only [renew]
  split
  · exact Step.idle _
  · rename_i hreply
    exact Step.answered hreply
  · rename_i r hr hreply
    cases hphase : r.phase with
    | waiting => exact Step.worked (Or.inl rfl) hreply
    | swapping => exact Step.swapped hr hphase
    | rereading seen => exact Step.looked hr hphase
    | releasing seen => exact Step.worked (Or.inr (Or.inl rfl)) hreply
    | released => exact Step.worked (Or.inr (Or.inr rfl)) hreply
    | ended => exact Step.idle _

theorem step_next (f : Fleet ι) (act : Act ι) : Step f act (f.next act) := by
  cases act with
  | begin i uid cidr => exact Step.begun i uid cidr
  | proceed j =>
      simp only [next]
      cases hc : f.calls[j]? with
      | none => exact Step.idle (Act.proceed j)
      | some c => exact step_proceed hc
  | renew i id => exact step_renew f i id
  | stop i id =>
      simp only [next]
      split
      · rename_i hcancelled
        exact Step.stopped hcancelled
      · exact Step.idle _
  | cancel i => exact Step.cancelled i
  | drain i => exact Step.drained i
  | elapse nanos => exact Step.elapsed nanos
  | sweep => exact Step.swept
  | delete key => exact Step.deleted key

/-!
# What an act does to a call

A call is changed by its own acts alone, and keeps its member, its owner and the
resource it asks for.
-/

inductive Call.Move (f : Fleet ι) (j : Nat) :
    Act ι -> Call ι -> Call ι -> Prop where
  | stay (act : Act ι) (c : Call ι) : Move f j act c c
  | listed {c : Call ι} {found : Snapshot} {token : Option String} :
      c.admission.phase = .listing (.reading found token) ->
      Move f j (.proceed j) c
        ⟨c.member, c.admission.listed (f.settings c)
          (.ok (f.store.scan f.now (Listing.request (f.settings c) token)).1)⟩
  | created {c : Call ι} :
      c.admission.phase = .creating ->
      Move f j (.proceed j) c
        ⟨c.member, c.admission.created
          (f.store.write f.now (c.admission.command (f.settings c))).1⟩
  | registered {c : Call ι} :
      c.admission.phase = .registering ->
      Move f j (.proceed j) c ⟨c.member, c.admission.registered⟩

theorem Step.call
    {f g : Fleet ι} {act : Act ι} {j : Nat} {c : Call ι}
    (h : Step f act g) (hc : f.calls[j]? = some c) :
    exists c', g.calls[j]? = some c' ∧ Call.Move f j act c c' := by
  have hother {k : Nat} (a : Admission) (hk : k ≠ j) :
      (f.setCall k a).calls[j]? = some c := by
    rw [calls_setCall, if_neg hk, hc]
  have hown (a : Admission) : (f.setCall j a).calls[j]? =
      some ⟨c.member, a⟩ := by
    rw [calls_setCall, if_pos rfl, hc]
    rfl
  cases h with
  | begun i uid cidr =>
      refine ⟨c, ?_, Call.Move.stay _ c⟩
      have hj : j ≠ f.calls.size := by
        intro heq
        rw [heq, Array.getElem?_eq_none (Nat.le_refl _)] at hc
        cases hc
      rw [Array.getElem?_push, if_neg hj, hc]
  | @listed k d found token hd hphase =>
      by_cases hk : k = j
      · subst hk
        rw [hc] at hd
        cases hd
        exact ⟨_, hown _, Call.Move.listed hphase⟩
      · exact ⟨c, hother _ hk, Call.Move.stay _ c⟩
  | @created k d hd hphase =>
      by_cases hk : k = j
      · subst hk
        rw [hc] at hd
        cases hd
        exact ⟨_, hown _, Call.Move.created hphase⟩
      · exact ⟨c, hother _ hk, Call.Move.stay _ c⟩
  | @registered k d hd hphase =>
      by_cases hk : k = j
      · subst hk
        rw [hc] at hd
        cases hd
        exact ⟨_, hown _, Call.Move.registered hphase⟩
      · exact ⟨c, hother _ hk, Call.Move.stay _ c⟩
  | _ => exact ⟨c, hc, Call.Move.stay _ c⟩

omit [DecidableEq ι] in
theorem Call.Move.request_eq {f : Fleet ι} {j : Nat} {act : Act ι}
    {c c' : Call ι} (h : Call.Move f j act c c') :
    c'.member = c.member ∧ c'.admission.uid = c.admission.uid ∧
      c'.admission.cidr = c.admission.cidr := by
  cases h <;> simp

theorem Step.call_cases
    {f g : Fleet ι} {act : Act ι} {j : Nat} {c' : Call ι}
    (h : Step f act g) (hc' : g.calls[j]? = some c') :
    (exists c, f.calls[j]? = some c ∧ Call.Move f j act c c') ∨
      exists i uid cidr, act = .begin i uid cidr ∧ f.calls[j]? = none ∧
        c' = ⟨i, (f.members i).manager.attempt uid cidr⟩ := by
  cases hc : f.calls[j]? with
  | some c =>
      rcases h.call hc with ⟨c'', hc'', hmove⟩
      rw [hc'] at hc''
      cases hc''
      exact Or.inl ⟨c, rfl, hmove⟩
  | none =>
      cases h with
      | begun i uid cidr =>
          refine Or.inr ⟨i, uid, cidr, rfl, rfl, ?_⟩
          rw [Array.getElem?_push] at hc'
          split at hc'
          · exact (Option.some.inj hc').symm
          · rw [hc] at hc'
            cases hc'
      | listed | created | registered =>
          simp [calls_setCall, hc] at hc'
      | _ => exact absurd (hc'.symm.trans hc) (by simp)

/-!
# What an act does to a member

A member changes by the acts of its own calls and renewals, and otherwise only
by its shutdown.
-/

inductive Member.Move (f : Fleet ι) (store : MemoryStore) (i : ι) :
    Act ι -> Member -> Member -> Prop where
  | stay (act : Act ι) (m : Member) : Move f store i act m m
  | ensured {j : Nat} {c : Call ι} {m : Member} :
      f.calls[j]? = some c -> c.member = i ->
      c.admission.phase = .registering ->
      Move f store i (.proceed j) m
        (m.step (.ensure f.now (m.manager.lease c.admission)))
  | answered {id : Nat} {reply : Reply} {m : Member} :
      m.replies id = some reply ->
      Move f store i (.renew i id) m ((m.step (reply.event id)).post id none)
  | worked {id : Nat} {e : Manager.Event} {m : Member} :
      e = .tick id f.now ∨ e = .release id ∨ e = .finish id ->
      m.replies id = none ->
      Move f store i (.renew i id) m (m.step e)
  | swapped {id : Nat} {r : Renewal} {result : Except StoreError WriteResult}
      {m : Member} :
      m.manager.renewal? id = some r -> r.phase = .swapping ->
      Move f store i (.renew i id) m (m.post id (some (.swapped result)))
  | looked {id seen : Nat} {r : Renewal} {found : ReadResult} {m : Member} :
      m.manager.renewal? id = some r -> r.phase = .rereading seen ->
      found.entry.map (·.value) = store.value? r.lease.key ->
      Move f store i (.renew i id) m (m.post id (some (.found (.ok found))))
  | stopped {id : Nat} {m : Member} :
      m.manager.isCancelled = true ->
      Move f store i (.stop i id) m ((m.step (.stop id)).post id none)
  | cancelled (m : Member) : Move f store i (.cancel i) m (m.step .cancel)
  | drained (m : Member) : Move f store i (.drain i) m (m.step .drain)

theorem Member.Move.set {f : Fleet ι} {store : MemoryStore} {i : ι}
    {act : Act ι} {m' : Member} (h : Member.Move f store i act (f.members i) m')
    (k : ι) :
    Member.Move f store k act (f.members k) ((f.setMember i m').members k) := by
  rw [members_setMember]
  split
  · rename_i hk
    subst hk
    exact h
  · exact Member.Move.stay act _

theorem Step.member {f g : Fleet ι} {act : Act ι} (h : Step f act g) (k : ι) :
    Member.Move f g.store k act (f.members k) (g.members k) := by
  cases h with
  | idle | begun | listed | created | elapsed | swept | deleted =>
      exact Member.Move.stay _ _
  | registered hc hphase => exact (Member.Move.ensured hc rfl hphase).set k
  | answered hreply => exact (Member.Move.answered hreply).set k
  | worked he hreply => exact (Member.Move.worked he hreply).set k
  | swapped hr hphase => exact (Member.Move.swapped hr hphase).set k
  | looked hr hphase =>
      exact (Member.Move.looked hr hphase (value_read f.store f.now _)).set k
  | stopped hcancelled => exact (Member.Move.stopped hcancelled).set k
  | cancelled i => exact (Member.Move.cancelled (f.members i)).set k
  | drained i => exact (Member.Move.drained (f.members i)).set k

@[simp] theorem Member.manager_step (m : Member) (e : Manager.Event) :
    (m.step e).manager = m.manager.step e := rfl

@[simp] theorem Member.manager_post (m : Member) (id : Nat)
    (reply : Option Reply) :
    (m.post id reply).manager = m.manager := rfl

omit [DecidableEq ι] in
theorem Member.Move.manager_cases {f : Fleet ι} {store : MemoryStore} {i : ι}
    {act : Act ι} {m m' : Member} (h : Member.Move f store i act m m') :
    m'.manager = m.manager ∨ exists e, m'.manager = m.manager.step e := by
  cases h with
  | stay | swapped | looked => exact Or.inl rfl
  | @answered id reply _ => exact Or.inr ⟨reply.event id, rfl⟩
  | @stopped id => exact Or.inr ⟨.stop id, rfl⟩
  | _ => exact Or.inr ⟨_, Member.manager_step m _⟩

theorem Step.settings {f g : Fleet ι} {act : Act ι} (h : Step f act g) (i : ι) :
    (g.members i).manager.settings = (f.members i).manager.settings := by
  rcases (h.member i).manager_cases with hsame | ⟨e, hstep⟩
  · rw [hsame]
  · rw [hstep, Manager.settings_step]

/-!
# What an act does to the store

Only a call can create a key and only a renewal can write over one, each of them
its own. Only the clock moves on its own, and nothing else does with it.
-/

theorem Step.now {f g : Fleet ι} {act : Act ι} (h : Step f act g) :
    g.now = f.now ∨ exists nanos, act = .elapse nanos ∧ g.now = f.now + nanos ∧
      g.store = f.store := by
  cases h with
  | elapsed nanos => exact Or.inr ⟨nanos, rfl, rfl, rfl⟩
  | _ => exact Or.inl rfl

theorem Step.store_cases {f g : Fleet ι} {act : Act ι} (h : Step f act g) :
    Purged f.now f.store g.store ∨
      (exists j c e, act = .proceed j ∧ f.calls[j]? = some c ∧
        c.admission.phase = .creating ∧
        f.store.live? f.now (c.admission.key (f.settings c)) = none ∧
        e.value = c.admission.uid ∧ e.hasLapsed f.now = false ∧
        Replaced f.store g.store (c.admission.key (f.settings c)) (some e)) ∨
      (exists i id r old e, act = .renew i id ∧
        (f.members i).manager.renewal? id = some r ∧
        f.store.live? f.now r.lease.key = some old ∧ old.value = r.lease.owner ∧
        e.value = r.lease.owner ∧
          Replaced f.store g.store r.lease.key (some e)) ∨
      (exists key, act = .delete key ∧ Replaced f.store g.store key none) := by
  cases h with
  | listed => exact Or.inl (purged_scan f.store f.now _)
  | @created j c hc hphase =>
      rcases create_cases f.store f.now (c.admission.key (f.settings c))
        c.admission.uid
        (f.settings c).ttlMs with
          ⟨_, _, hpurged⟩ | ⟨_, e, _, hlive, hvalue, hlapsed, hreplaced⟩
      · exact Or.inl hpurged
      · exact Or.inr (Or.inl ⟨j, c, e, rfl, hc, hphase, hlive, hvalue,
          hlapsed, hreplaced⟩)
  | @swapped i id r hr hphase =>
      rcases renew_cases f.store f.now r.lease.key r.lease.owner
        r.lease.ttlMs with
        hpurged | ⟨old, e, hlive, hold, hvalue, hreplaced⟩
      · exact Or.inl hpurged
      · exact Or.inr (Or.inr
          (Or.inl ⟨i, id, r, old, e, rfl, hr, hlive, hold, hvalue, hreplaced⟩))
  | looked => exact Or.inl (purged_read f.store f.now _)
  | swept => exact Or.inl (purged_expireDue f.store f.now)
  | deleted key =>
      rcases delete_cases f.store f.now key with hpurged | hreplaced
      · exact Or.inl hpurged
      · exact Or.inr (Or.inr (Or.inr ⟨key, rfl, hreplaced⟩))
  | _ => exact Or.inl (purged_of_get?_eq (fun _ => rfl))

theorem Step.keepsValues {f g : Fleet ι} {act : Act ι} (h : Step f act g) :
    KeepsValues f.store g.store := by
  cases h with
  | listed => exact keepsValues_scan f.store f.now _
  | created => exact keepsValues_create f.store f.now _ _ _
  | swapped => exact keepsValues_renew f.store f.now _ _ _
  | looked => exact keepsValues_read f.store f.now _
  | swept => exact keepsValues_expireDue f.store f.now
  | deleted key => exact keepsValues_delete f.store f.now key
  | _ => exact keepsValues_refl f.store

/-!
# Runs
-/

def CreatesAt (start : Fleet ι) (acts : List (Act ι)) (j : Nat) (c : Call ι)
    (n : Nat) : Prop :=
  acts[n]? = some (.proceed j) ∧ (start.after acts n).calls[j]? = some c ∧
    c.admission.phase = .creating ∧
    exists c', (start.after acts (n + 1)).calls[j]? = some c' ∧
      c'.admission.phase = .registering

section

variable {start : Fleet ι} {acts : List (Act ι)}

theorem after_succ {n : Nat} {act : Act ι} (h : acts[n]? = some act) :
    start.after acts (n + 1) = (start.after acts n).next act :=
  stateAt_succ h

theorem after_cases (start : Fleet ι) (acts : List (Act ι)) (n : Nat) :
    (acts[n]? = none ∧ start.after acts (n + 1) = start.after acts n) ∨
      exists act, acts[n]? = some act ∧
        Step (start.after acts n) act (start.after acts (n + 1)) := by
  cases h : acts[n]? with
  | none => exact Or.inl ⟨rfl, stateAt_succ_of_none h⟩
  | some act =>
      refine Or.inr ⟨act, rfl, ?_⟩
      rw [after_succ h]
      exact step_next _ act

theorem after_invariant {P : Fleet ι -> Prop} (hstart : P start)
    (hstep : forall f act g, Step f act g -> P f -> P g) (n : Nat) :
    P (start.after acts n) :=
  stateAt_invariant hstart (fun f act => hstep f act _ (step_next f act)) acts n

theorem keepsValues_after {m n : Nat} (hmn : m ≤ n) :
    KeepsValues (start.after acts m).store (start.after acts n).store :=
  stateAt_related (R := fun f g : Fleet ι => KeepsValues f.store g.store)
    (fun f => keepsValues_refl f.store) (fun hfg hgh => hfg.trans hgh)
    (fun f act => (step_next f act).keepsValues) start acts hmn

end

end Fleet
end FairLease
