import FairLease.Proofs.Fleet.Course

/-!
# Attempts to renew

Each time that its tick is due, a renewal asks the store to renew its claim. It
takes the tick, asks, and takes up the answer, and what others do between these
steps does not concern it.
-/

namespace FairLease

namespace Fleet

open MemoryStore

/-!
# Lists of attempts
-/

structure Attempt where
  now : Nat
  hasFailed : Bool
  deriving DecidableEq, Repr

/-- How many attempts have failed in a row, of a list that begins with the
latest one. -/
def failures (l : List Attempt) : Nat :=
  (l.takeWhile (·.hasFailed)).length

theorem failures_le (l : List Attempt) : failures l ≤ l.length :=
  (List.takeWhile_sublist _).length_le

def isAsking (f : Fleet Unit) (id : Nat) : Bool :=
  ((f.members ()).manager.renewal? id).any (fun r => r.phase == .swapping) &&
    ((f.members ()).replies id).isNone

def Deed.attempt? (f : Fleet Unit) (id : Nat) : Deed -> Option Attempt
  | .act (.renew _ k) =>
      if k = id ∧ f.isAsking id then some ⟨f.now, false⟩ else none
  | .fail k _ => if k = id ∧ f.isAsking id then some ⟨f.now, true⟩ else none
  | _ => none

/-- The attempts of a renewal before the deed `n`, the latest one first. -/
def attempts (start : Fleet Unit) (deeds : List Deed) (id : Nat) :
    Nat -> List Attempt
  | 0 => []
  | n + 1 =>
      (deeds[n]?.bind (fun d => d.attempt? (start.course deeds n) id)).toList ++
        attempts start deeds id n

theorem attempt?_eq_none_of_ne {f : Fleet Unit} {d : Deed} {id : Nat}
    (hact : d ≠ .act (.renew () id)) (hfail : forall e, d ≠ .fail id e) :
    d.attempt? f id = none := by
  cases d with
  | act a =>
      cases a with
      | renew i k =>
          have hk : k ≠ id := by
            rintro rfl
            exact hact rfl
          simp [Deed.attempt?, hk]
      | _ => rfl
  | fail k e =>
      have hk : k ≠ id := by
        rintro rfl
        exact hfail e rfl
      simp [Deed.attempt?, hk]
  | write | read | scan => rfl

theorem attempt?_eq_none_of_not_asking {f : Fleet Unit} {id : Nat}
    (h : f.isAsking id = false) (d : Deed) : d.attempt? f id = none := by
  cases d with
  | act a => cases a <;> simp [Deed.attempt?, h]
  | _ => simp [Deed.attempt?, h]

theorem attempts_of_length_le {start : Fleet Unit} {deeds : List Deed}
    {id n : Nat} (h : deeds.length ≤ n) :
    attempts start deeds id n = attempts start deeds id deeds.length := by
  induction h with
  | refl => rfl
  | @step n h ih =>
      rw [attempts, List.getElem?_eq_none h, ih]
      rfl

theorem attempts_eq_nil {start : Fleet Unit} {deeds : List Deed} {id n : Nat}
    (h : ((start.course deeds n).members ()).manager.renewal? id = none) :
    attempts start deeds id (n + 1) = [] := by
  induction n with
  | zero =>
      have hquiet : (start.course deeds 0).isAsking id = false := by
        simp [isAsking, h]
      simp [attempts, attempt?_eq_none_of_not_asking hquiet]
  | succ n ih =>
      have hquiet : (start.course deeds (n + 1)).isAsking id = false := by
        simp [isAsking, h]
      rw [attempts, ih (renewal?_course (Nat.le_succ n) h)]
      simp [attempt?_eq_none_of_not_asking hquiet]

/-!
# One renewal
-/

section

variable {m : Member} {id : Nat} {lease : Lease} {phase : Renewal.Phase}
  {ticker : Ticker} {reply : Option Reply}

theorem Member.Renews.post (h : m.Renews id lease phase ticker reply)
    (reply' : Option Reply) :
    (m.post id reply').Renews id lease phase ticker reply' :=
  ⟨h.known, replies_post_self reply'⟩

theorem Member.Renews.change (h : m.Renews id lease phase ticker reply)
    {e : Manager.Event} {f : Renewal -> Renewal}
    (he : m.manager.step e = m.manager.change id f) {phase' : Renewal.Phase}
    {ticker' : Ticker}
    (hf : forall touches, f ⟨lease, ticker, touches, phase⟩ =
      ⟨lease, ticker', touches, phase'⟩) :
    (m.step e).Renews id lease phase' ticker' reply := by
  rcases h with ⟨⟨touches, hr⟩, hreply⟩
  refine ⟨⟨touches, ?_⟩, hreply⟩
  rw [Manager.renewal?] at hr
  rw [manager_step, he, Manager.renewal?, Manager.change,
    Registry.renewal?_update, if_pos rfl, hr, Option.map_some, hf]

theorem Member.Renews.tick_of_due (h : m.Renews id lease .waiting ticker reply)
    {now : Nat} (hdue : ticker.isDue now = true) :
    (m.step (.tick id now)).Renews id lease .swapping
      (ticker.delay now) reply :=
  h.change rfl (by simp [Renewal.tick, hdue])

theorem Member.Renews.tick_of_not_due
    (h : m.Renews id lease .waiting ticker reply) {now : Nat}
    (hdue : ticker.isDue now = false) :
    (m.step (.tick id now)).Renews id lease .waiting ticker reply :=
  h.change rfl (by simp [Renewal.tick, hdue])

theorem Member.Renews.swapped (h : m.Renews id lease .swapping ticker reply)
    {result : Except StoreError WriteResult}
    (hresult : forall key expected actual, result ≠
      .error (.compareFailed key expected actual)) :
    (m.step (.swapped id result)).Renews id lease .waiting ticker reply := by
  refine h.change rfl ?_
  intro touches
  simp only [Renewal.swapped]

variable {f : Fleet Unit}

theorem isAsking_of_renews
    (h : (f.members ()).Renews id lease phase ticker reply) :
    f.isAsking id = (phase == .swapping && reply.isNone) := by
  rcases h with ⟨⟨touches, hr⟩, hreply⟩
  simp [isAsking, hr, hreply]

theorem renew_of_waiting
    (h : (f.members ()).Renews id lease .waiting ticker none) :
    f.renew () id = f.setMember () ((f.members ()).step (.tick id f.now)) := by
  rcases h with ⟨⟨touches, hr⟩, hreply⟩
  simp only [renew, hr, hreply]

theorem renew_of_asking
    (h : (f.members ()).Renews id lease .swapping ticker none) :
    f.renew () id = (f.setStore (f.store.write f.now
        (.compareAndSwapWithTtl lease.key lease.owner lease.owner
          lease.ttlMs)).2).setMember ()
      ((f.members ()).post id (some (.swapped (f.store.write f.now
        (.compareAndSwapWithTtl lease.key lease.owner lease.owner
          lease.ttlMs)).1))) := by
  rcases h with ⟨⟨touches, hr⟩, hreply⟩
  simp only [renew, hr, hreply, Renewal.command]

theorem renew_of_reply {reply : Reply}
    (h : (f.members ()).Renews id lease phase ticker (some reply)) :
    f.renew () id = f.setMember ()
      (((f.members ()).step (reply.event id)).post id none) := by
  rcases h with ⟨⟨touches, hr⟩, hreply⟩
  simp only [renew, hr, hreply]

theorem fail_of_asking
    (h : (f.members ()).Renews id lease .swapping ticker none)
    (e : StoreError) :
    f.fail id e = f.setMember ()
      ((f.members ()).post id (some (.swapped (.error e)))) := by
  rcases h with ⟨⟨touches, hr⟩, hreply⟩
  simp only [fail, hr, hreply]

theorem fail_of_not_asking
    (h : (f.members ()).Renews id lease phase ticker reply)
    (hquiet : phase = .waiting ∨ reply ≠ none) (e : StoreError) :
    f.fail id e = f := by
  rcases h with ⟨⟨touches, hr⟩, hreply⟩
  cases reply with
  | some pending => simp only [fail, hr, hreply]
  | none =>
      rcases hquiet with rfl | hpending
      · simp only [fail, hr, hreply]
      · exact absurd rfl hpending

end

end Fleet
end FairLease
