import FairLease.Proofs.Etcd.Agreement
import FairLease.Proofs.Etcd.Watching

/-!
# Failing over

A request is offered to one endpoint after the other as long as none of them can
be connected to. The first other outcome ends this, and is all that the client
learns from. A timeout ends it, too, whatever the request was waiting for.
-/

namespace FairLease
namespace Etcd

variable {σ : Type}

/-!
# Outcomes in turn
-/

/-- What each endpoint makes of a request that all those before it have been
offered. -/
def outcomes (send : Transport σ) (r : KeyRequest) :
    List Endpoint -> σ -> List Outcome
  | [], _ => []
  | e :: rest, s =>
      (send (r.at e) s).1 :: outcomes send r rest (send (r.at e) s).2

/-- None of the first `n` could be connected to, and not because of a
timeout. -/
def Passes (os : List Outcome) (n : Nat) : Prop :=
  forall k, k < n -> exists reason, os[k]? = some (.failed false true reason)

theorem Outcome.isUnreachable_iff {o : Outcome} :
    o.isUnreachable = true <->
      exists reason, o = .failed false true reason := by
  constructor
  · intro h
    cases o with
    | silent | response => cases h
    | failed isTimeout isConnect reason =>
        cases isTimeout with
        | true => cases h
        | false =>
            cases isConnect with
            | false => cases h
            | true => exact ⟨reason, rfl⟩
  · rintro ⟨reason, rfl⟩
    rfl

theorem passes_zero (os : List Outcome) : Passes os 0 :=
  fun k hk => absurd hk (Nat.not_lt_zero k)

theorem Passes.cons {os : List Outcome} {n : Nat} (h : Passes os n)
    {o : Outcome} (ho : o.isUnreachable = true) : Passes (o :: os) (n + 1) := by
  intro k hk
  cases k with
  | zero =>
      rcases Outcome.isUnreachable_iff.mp ho with ⟨reason, rfl⟩
      exact ⟨reason, rfl⟩
  | succ k => exact h k (Nat.lt_of_succ_lt_succ hk)

theorem length_outcomes (send : Transport σ) (r : KeyRequest)
    (endpoints : List Endpoint) (s : σ) :
    (outcomes send r endpoints s).length = endpoints.length := by
  induction endpoints generalizing s with
  | nil => rfl
  | cons e rest ih => rw [outcomes, List.length_cons, ih, List.length_cons]

/-!
# The endpoint that ends it
-/

/-- The `n`-th endpoint is the last that is offered the request, of which it
makes `o`. -/
structure EndsAt (send : Transport σ) (r : KeyRequest)
    (endpoints : List Endpoint) (s : σ) (n : Nat) (o : Outcome) : Prop where
  outcome : (outcomes send r endpoints s)[n]? = some o
  passes : Passes (outcomes send r endpoints s) n
  settled : o.isUnreachable = true -> n + 1 = endpoints.length

section

variable {send : Transport σ} {r : KeyRequest} {endpoints : List Endpoint}
  {s : σ} {n : Nat} {o : Outcome}

theorem EndsAt.lt_length (h : EndsAt send r endpoints s n o) :
    n < endpoints.length := by
  rw [← length_outcomes send r endpoints s]
  exact (List.getElem?_eq_some_iff.mp h.outcome).1

theorem EndsAt.cons {e : Endpoint}
    (hfirst : (send (r.at e) s).1.isUnreachable = true)
    (h : EndsAt send r endpoints (send (r.at e) s).2 n o) :
    EndsAt send r (e :: endpoints) s (n + 1) o where
  outcome := h.outcome
  passes := h.passes.cons hfirst
  settled := fun hunreachable => congrArg Nat.succ (h.settled hunreachable)

theorem EndsAt.tail {e : Endpoint}
    (h : EndsAt send r (e :: endpoints) s (n + 1) o) :
    EndsAt send r endpoints (send (r.at e) s).2 n o where
  outcome := h.outcome
  passes := fun k hk => h.passes (k + 1) (Nat.succ_lt_succ hk)
  settled := fun hunreachable => Nat.succ.inj (h.settled hunreachable)

theorem EndsAt.head {e : Endpoint}
    (h : EndsAt send r (e :: endpoints) s (n + 1) o) :
    (send (r.at e) s).1.isUnreachable = true := by
  rcases h.passes 0 (Nat.succ_pos n) with ⟨reason, hreason⟩
  exact Outcome.isUnreachable_iff.mpr ⟨reason, Option.some.inj hreason⟩

theorem exists_endsAt (send : Transport σ) (r : KeyRequest)
    {endpoints : List Endpoint} (hne : endpoints ≠ []) (s : σ) :
    exists n o, EndsAt send r endpoints s n o := by
  induction endpoints generalizing s with
  | nil => exact absurd rfl hne
  | cons e rest ih =>
      cases rest with
      | nil => exact ⟨0, (send (r.at e) s).1, rfl, passes_zero _, fun _ => rfl⟩
      | cons f rest =>
          cases hfirst : (send (r.at e) s).1.isUnreachable with
          | false =>
              refine ⟨0, (send (r.at e) s).1, rfl, passes_zero _, ?_⟩
              rw [hfirst]
              exact fun hunreachable => absurd hunreachable Bool.false_ne_true
          | true =>
              rcases ih (List.cons_ne_nil f rest) (send (r.at e) s).2 with
                ⟨n, o, h⟩
              exact ⟨n + 1, o, h.cons hfirst⟩

/-- The request goes to the endpoints up to the one that ends it, and to nobody
else. -/
theorem EndsAt.contact_eq (h : EndsAt send r endpoints s n o)
    (sent : List HttpRequest) :
    exists t, contact send r endpoints s = (o, t) ∧
      contact (recording send) r endpoints (s, sent) =
        (o, (t, sent ++ (endpoints.take (n + 1)).map r.at)) := by
  induction endpoints generalizing s n sent with
  | nil => cases h.outcome
  | cons e rest ih =>
      have hrecorded : recording send (r.at e) (s, sent) =
          ((send (r.at e) s).1, ((send (r.at e) s).2, sent ++ [r.at e])) := rfl
      cases n with
      | zero =>
          have ho : (send (r.at e) s).1 = o := Option.some.inj h.outcome
          have hsettled : (send (r.at e) s).1.isUnreachable = true ->
              rest = [] := by
            intro hunreachable
            rw [ho] at hunreachable
            exact List.eq_nil_of_length_eq_zero
              (Nat.succ.inj (h.settled hunreachable)).symm
          have hrecording : contact (recording send) r (e :: rest) (s, sent) =
              recording send (r.at e) (s, sent) := contact_of_settled hsettled
          refine ⟨(send (r.at e) s).2, ?_, ?_⟩
          · rw [contact_of_settled hsettled, ← ho, Prod.eta]
          · rw [hrecording, hrecorded, ho]
            rfl
      | succ n =>
          cases rest with
          | nil => cases h.outcome
          | cons f rest =>
              -- the first request is on record when the rest of the endpoints
              -- is contacted
              rw [contact_cons, contact_cons, hrecorded, if_pos h.head,
                if_pos h.head]
              rcases ih h.tail (sent ++ [r.at e]) with ⟨t, hcontact, hsent⟩
              refine ⟨t, hcontact, ?_⟩
              rw [hsent, List.append_assoc]
              rfl

/-- An endpoint behind others that cannot be connected to ends the request,
unless a timeout at one of them does. -/
theorem EndsAt.of_failures (h : EndsAt send r endpoints s n o) {i : Nat}
    {o' : Outcome}
    (hfailed : forall k, k < i -> exists isTimeout reason,
      (outcomes send r endpoints s)[k]? = some (.failed isTimeout true reason))
    (ho' : (outcomes send r endpoints s)[i]? = some o')
    (hreachable : o'.isUnreachable = false) :
    (Passes (outcomes send r endpoints s) i ∧ o = o') ∨
      (¬ Passes (outcomes send r endpoints s) i ∧
        exists reason, o = .failed true true reason) := by
  have hlength : i < endpoints.length := by
    rw [← length_outcomes send r endpoints s]
    exact (List.getElem?_eq_some_iff.mp ho').1
  -- an endpoint that is not the last one ends the request for another reason
  have hearly (hni : n < i) : ¬ o.isUnreachable = true := by
    intro hunreachable
    have hlast := h.settled hunreachable
    omega
  by_cases hpasses : Passes (outcomes send r endpoints s) i
  · refine Or.inl ⟨hpasses, ?_⟩
    rcases Nat.lt_trichotomy n i with hni | rfl | hin
    · rcases hpasses n hni with ⟨reason, hreason⟩
      cases h.outcome.symm.trans hreason
      exact absurd rfl (hearly hni)
    · exact Option.some.inj (h.outcome.symm.trans ho')
    · rcases h.passes i hin with ⟨reason, hreason⟩
      cases ho'.symm.trans hreason
      cases hreachable
  · have hni : n < i := by
      refine Nat.lt_of_not_le fun hin => hpasses ?_
      exact fun k hk => h.passes k (Nat.lt_of_lt_of_le hk hin)
    rcases hfailed n hni with ⟨isTimeout, reason, hreason⟩
    cases h.outcome.symm.trans hreason
    cases isTimeout with
    | false => exact absurd rfl (hearly hni)
    | true => exact Or.inr ⟨hpasses, reason, rfl⟩

end

/-!
# What the client takes from it
-/

def Watcher.heed (w : Watcher) (timeoutMs : Nat) (o : Outcome) :
    Poll × Watcher :=
  if o.isEndless then (.endless, w)
  else
    match o.result timeoutMs with
    | .error e => (.failed e, w)
    | .ok x => w.receive x

section

variable {c : Client} {send : Transport σ} {r : KeyRequest} {s t : σ}
  {o : Outcome}

theorem exchange_of_contact (h : contact send r c.endpoints s = (o, t)) :
    c.exchange send r s = (o.result c.timeoutMs, t) := by
  rw [Client.exchange_eq, h]

theorem poll_of_contact {w : Watcher}
    (h : contact send (.ofPoll w) c.endpoints s = (o, t)) :
    w.poll c send s = (w.heed c.timeoutMs o, t) := by
  rw [Watcher.poll_eq, h]
  rfl

theorem Watcher.heed_of_carries {w : Watcher} {x : Exchange} (h : o.Carries x)
    (timeoutMs : Nat) :
    w.heed timeoutMs o = w.receive x := by
  rw [heed, h.isEndless_eq, if_neg Bool.false_ne_true, h.result_eq]

theorem Watcher.receive_ne_timeout (w : Watcher) (x : Exchange)
    (timeoutMs : Nat) :
    w.receive x ≠ (.failed (.timeout timeoutMs), w) := by
  rcases x with ⟨index, reply⟩
  cases reply with
  | success response =>
      intro h
      cases hevent : response.event? <;> simp [Watcher.receive, hevent] at h
  | failure e =>
      intro h
      by_cases hcleared : e.code = ErrorBody.historyCleared <;>
        simp [Watcher.receive, hcleared, ErrorBody.toStoreError] at h

end

/-!
# Writing

Whatever a client asks when its command was refused, it asks by a question.
-/

section

variable {c : Client} {send : Transport σ} {command : Command}

theorem state_currentValue (key : String) (s : σ) :
    (c.currentValue send key s).2 = (c.exchange send (.ofRead key) s).2 := by
  rcases h : c.exchange send (.ofRead key) s with ⟨result, t⟩
  simp only [Client.currentValue, bind, StateT.bind, h]
  rcases result with e | ⟨index, reply⟩
  · rfl
  · cases reply <;> rfl

theorem state_refusal (e : ErrorBody) (s : σ) :
    (c.refusal send command e s).2 = s ∨
      exists key, (c.refusal send command e s).2 =
        (c.exchange send (.ofRead key) s).2 := by
  have hfailed (key : String) (expected : Option String) :
      (c.compareFailed send key expected s).2 =
        (c.exchange send (.ofRead key) s).2 :=
    state_currentValue key s
  cases command with
  | set | setWithTtl => exact Or.inl rfl
  | createWithTtl | delete =>
      rw [Client.refusal]
      split <;> exact Or.inl rfl
  | compareAndSwap key expected newValue =>
      rw [Client.refusal]
      split
      · exact Or.inr ⟨key, hfailed key expected⟩
      · exact Or.inl rfl
  | compareAndSwapWithTtl key expected newValue ttlMs =>
      rw [Client.refusal]
      split
      · exact Or.inr ⟨key, hfailed key (some expected)⟩
      · exact Or.inl rfl

theorem state_write (hvalid : command.validate = .ok ()) {s t : σ}
    {result : Except StoreError Exchange}
    (h : c.exchange send (.ofCommand command) s = (result, t)) :
    (c.write send command s).2 = t ∨
      exists key, (c.write send command s).2 =
        (c.exchange send (.ofRead key) t).2 := by
  cases result with
  | error e =>
      simp only [Client.write, hvalid, bind, StateT.bind, h]
      exact Or.inl rfl
  | ok x =>
      rcases x with ⟨index, reply⟩
      cases reply with
      | success response =>
          rw [write_of_success hvalid h]
          exact Or.inl rfl
      | failure e =>
          rw [write_of_failure hvalid h rfl]
          exact state_refusal e t

theorem asks_of_get (hne : c.endpoints ≠ []) {r : KeyRequest}
    (hget : r.method = .get) (s : σ) (sent : List HttpRequest) :
    exists asked, (c.exchange (recording send) r (s, sent)).2.2 =
      sent ++ asked ∧
      forall q, q ∈ asked -> q.method = .get := by
  rcases exists_endsAt send r hne s with ⟨n, o, hends⟩
  rcases hends.contact_eq sent with ⟨t, _, hsent⟩
  refine ⟨(c.endpoints.take (n + 1)).map r.at, ?_, ?_⟩
  · rw [exchange_of_contact hsent]
  · intro q hq
    rcases List.mem_map.mp hq with ⟨e, _, rfl⟩
    exact hget

end

/-!
# Endpoints that answer nothing

One endpoint that cannot be reached stands before others that answer.
-/

def creation : Response :=
  ⟨"create", .mk "/c/a" (some "x") false [] 4 4 none, none⟩

def toldOfCreation : Outcome :=
  .response 200 (some "7") (.whole creation.toJson.compact)

def behind (first : Outcome) : Transport Unit :=
  fun q s => (if q.host = singleEndpoint.host then first else toldOfCreation, s)

def threeEndpoints : Client :=
  ⟨[singleEndpoint, { singleEndpoint with host := .domain ['f'] },
    { singleEndpoint with host := .domain ['g'] }], 5000⟩

theorem outcomes_behind (first : Outcome) (r : KeyRequest) :
    outcomes (behind first) r threeEndpoints.endpoints () =
      [first, toldOfCreation, toldOfCreation] :=
  rfl

theorem carries_toldOfCreation :
    toldOfCreation.Carries ⟨some 7, .success creation⟩ := by
  have hword : wordSize 64 = 18446744073709551616 := rfl
  have hfits : creation.Fits :=
    ⟨by simp [creation, Node.fits_mk_iff, hword], fun _ h =>
      absurd h (by simp [creation])⟩
  exact ⟨200, some "7", _, rfl, readIndex_seven,
    Reply.decode_response hfits 200⟩

/-!
# One endpoint

What may have been carried out is not sent again.
-/

/-- A request is handed to one endpoint after the other, up to the `n`-th, which
makes `o` of it: (1) none before it could be connected to, and if it could not
be either, it is the last of all; (2) these endpoints are sent the request, each
of them once and in order, and `o` alone decides what the client is told; (3) so
it is with a long poll; (4) a valid command is sent to no other endpoint and to
none twice, and what the client sends after it are questions; (5) if none can be
connected to, all are sent the request, which then is unavailable for the reason
that the last one gives. -/
theorem handed_to_one_endpoint {σ : Type} (c : Client) (send : Transport σ)
    (r : KeyRequest) (s : σ)
    (sent : List HttpRequest) (hne : c.endpoints ≠ []) :
    exists n o t, n < c.endpoints.length ∧
      (outcomes send r c.endpoints s)[n]? = some o ∧
      Passes (outcomes send r c.endpoints s) n ∧
      ((exists reason, o = .failed false true reason) ->
        n + 1 = c.endpoints.length) ∧
      c.exchange (recording send) r (s, sent) =
        (o.result c.timeoutMs, t, sent ++ (c.endpoints.take (n + 1)).map r.at) ∧
      (forall w, r = .ofPoll w -> w.poll c (recording send) (s, sent) =
        (w.heed c.timeoutMs o, t,
          sent ++ (c.endpoints.take (n + 1)).map r.at)) ∧
      (forall command, r = .ofCommand command -> command.validate = .ok () ->
        exists asked, (c.write (recording send) command (s, sent)).2.2 =
            sent ++ (c.endpoints.take (n + 1)).map r.at ++ asked ∧
          forall q, q ∈ asked -> q.method = .get) ∧
      (Passes (outcomes send r c.endpoints s) c.endpoints.length ->
        n + 1 = c.endpoints.length ∧
        exists reason, o = .failed false true reason ∧
          o.result c.timeoutMs = .error (.unavailable reason)) := by
  rcases exists_endsAt send r hne s with ⟨n, o, hends⟩
  rcases hends.contact_eq sent with ⟨t, _, hsent⟩
  have hexchange := exchange_of_contact hsent
  refine ⟨n, o, t, hends.lt_length, hends.outcome, hends.passes,
    fun hunreachable =>
      hends.settled (Outcome.isUnreachable_iff.mpr hunreachable), hexchange,
    ?_, ?_, ?_⟩
  · rintro w rfl
    exact poll_of_contact hsent
  · rintro command rfl hvalid
    rcases state_write hvalid hexchange with hstate | ⟨key, hstate⟩
    · exact ⟨[], by rw [hstate, List.append_nil],
        fun q hq => absurd hq List.not_mem_nil⟩
    · rw [hstate]
      exact asks_of_get hne rfl t _
  · intro hall
    rcases hall n hends.lt_length with ⟨reason, hreason⟩
    cases hends.outcome.symm.trans hreason
    exact ⟨hends.settled rfl, reason, rfl, rfl⟩

theorem handed_to_one_endpoint_behindRefusal :
    threeEndpoints.endpoints ≠ [] ∧
      exists t, threeEndpoints.exchange
        (recording (behind (.failed false true "refused")))
          (.ofCommand (.createWithTtl "/c/a" "x" 1000)) ((), []) =
        (.ok ⟨some 7, .success creation⟩, t,
          (threeEndpoints.endpoints.take 2).map
            (KeyRequest.ofCommand (.createWithTtl "/c/a" "x" 1000)).at) := by
  have hne : threeEndpoints.endpoints ≠ [] := List.cons_ne_nil _ _
  refine ⟨hne, ?_⟩
  rcases handed_to_one_endpoint threeEndpoints
    (behind (.failed false true "refused"))
    (.ofCommand (.createWithTtl "/c/a" "x" 1000)) () [] hne with
    ⟨n, o, t, hn, ho, hpasses, hsettled, hexchange, _⟩
  rw [outcomes_behind] at ho hpasses
  match n with
  | 0 =>
      cases ho
      cases hsettled ⟨_, rfl⟩
  | 1 =>
      cases ho
      rw [carries_toldOfCreation.result_eq] at hexchange
      exact ⟨t, hexchange⟩
  | n + 2 =>
      rcases hpasses 1 (by omega) with ⟨reason, hreason⟩
      cases hreason

/-!
# Timeouts

Both long polls and other requests take a timeout for the end, though it may
come of an endpoint that cannot be connected to. The endpoints after that one
are not asked.
-/

section

variable {σ : Type} {c : Client} {send : Transport σ} {r : KeyRequest}
  {s : σ} {i : Nat} {o : Outcome} {x : Exchange}

/-- Where an endpoint answers and none before it could be connected to, its
answer is the one that the client takes exactly when none of them timed out. -/
theorem fails_over_iff_none_timed_out
    (hfailed : forall k, k < i -> exists isTimeout reason,
      (outcomes send r c.endpoints s)[k]? =
        some (.failed isTimeout true reason))
    (ho : (outcomes send r c.endpoints s)[i]? = some o) (hx : o.Carries x) :
    ((c.exchange send r s).1 = .ok x <->
      Passes (outcomes send r c.endpoints s) i) ∧
      (forall w, r = .ofPoll w ->
        ((w.poll c send s).1 = w.receive x <->
          Passes (outcomes send r c.endpoints s) i)) ∧
      (¬ Passes (outcomes send r c.endpoints s) i ->
        (c.exchange send r s).1 = .error (.timeout c.timeoutMs) ∧
          forall w, r = .ofPoll w ->
            (w.poll c send s).1 = (.failed (.timeout c.timeoutMs), w)) := by
  have hne : c.endpoints ≠ [] := by
    intro hnil
    rw [hnil] at ho
    cases ho
  rcases exists_endsAt send r hne s with ⟨n, o', hends⟩
  rcases hends.contact_eq [] with ⟨t, hcontact, _⟩
  have hexchange := exchange_of_contact hcontact
  rcases hends.of_failures hfailed ho hx.isUnreachable_eq with
    ⟨hpasses, rfl⟩ | ⟨htimeout, reason, rfl⟩
  · refine ⟨⟨fun _ => hpasses, fun _ => ?_⟩,
      fun w hw => ⟨fun _ => hpasses, fun _ => ?_⟩, fun hnot =>
        absurd hpasses hnot⟩
    · rw [hexchange, hx.result_eq]
    · subst hw
      rw [poll_of_contact hcontact, Watcher.heed_of_carries hx]
  · have hpoll (w : Watcher) (hw : r = .ofPoll w) :
        (w.poll c send s).1 = (.failed (.timeout c.timeoutMs), w) := by
      subst hw
      rw [poll_of_contact hcontact]
      rfl
    refine ⟨⟨fun h => ?_, fun h => absurd h htimeout⟩,
      fun w hw => ⟨fun h => ?_, fun h => absurd h htimeout⟩, fun _ =>
        ⟨?_, hpoll⟩⟩
    · rw [hexchange] at h
      cases h
    · rw [hpoll w hw] at h
      exact absurd h.symm (w.receive_ne_timeout x c.timeoutMs)
    · rw [hexchange]
      rfl

end

theorem fails_over_iff_none_timed_out_refused :
    (threeEndpoints.exchange (behind (.failed false true "refused"))
      (.ofRead "/c/a") ()).1 =
      .ok ⟨some 7, .success creation⟩ := by
  have houtcomes :=
    outcomes_behind (.failed false true "refused") (.ofRead "/c/a")
  have hbefore (k : Nat) (hk : k < 1) :
      (outcomes (behind (.failed false true "refused")) (.ofRead "/c/a")
        threeEndpoints.endpoints ())[k]? =
          some (.failed false true "refused") := by
    rw [Nat.lt_one_iff.mp hk, houtcomes]
    rfl
  have hanswer : (outcomes (behind (.failed false true "refused"))
      (.ofRead "/c/a")
      threeEndpoints.endpoints ())[1]? = some toldOfCreation := by
    rw [houtcomes]
    rfl
  rcases fails_over_iff_none_timed_out (fun k hk =>
    ⟨false, "refused", hbefore k hk⟩) hanswer
    carries_toldOfCreation with ⟨hexchange, _⟩
  exact hexchange.mpr fun k hk => ⟨"refused", hbefore k hk⟩

/-- An endpoint that swallows connections hides the others from reads and from
long polls. -/
theorem answers_hidden_behind_timeout :
    outcomes (behind (.failed true true "timed out"))
      (.ofRead "/c/a") threeEndpoints.endpoints () =
        [.failed true true "timed out", toldOfCreation, toldOfCreation] ∧
      outcomes (behind (.failed true true "timed out")) (.ofPoll ⟨"/c", some 4⟩)
          threeEndpoints.endpoints () =
        [.failed true true "timed out", toldOfCreation, toldOfCreation] ∧
      toldOfCreation.Carries ⟨some 7, .success creation⟩ ∧
      (threeEndpoints.exchange (behind (.failed true true "timed out"))
        (.ofRead "/c/a") ()).1 =
        .error (.timeout 5000) ∧
      (Watcher.poll threeEndpoints (behind (.failed true true "timed out"))
        ⟨"/c", some 4⟩ ()).1 =
        (.failed (.timeout 5000), ⟨"/c", some 4⟩) :=
  ⟨rfl, rfl, carries_toldOfCreation, rfl, rfl⟩

end Etcd
end FairLease
