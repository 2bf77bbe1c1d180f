import FairLease.Etcd.Client

/-!
# Replies to a client

What a client takes from a request is the reply of the endpoint that took it.
The endpoints that were tried before can only have changed what answers.
-/

namespace FairLease.Etcd

/-!
# Outcomes that carry a reply

A client goes by a reply exactly when the whole of a body came and decodes to
it. What is waited for without end carries none.
-/

/-- The outcome is a response whose body decodes to the reply. -/
def Outcome.Carries (o : Outcome) (x : Exchange) : Prop :=
  exists status header text,
    o = .response status header (.whole text) ∧
    readIndex header = x.clusterIndex ∧
      Reply.decode status text = .ok x.reply

namespace Outcome

theorem Carries.result_eq {o : Outcome} {x : Exchange} (h : o.Carries x)
    (timeoutMs : Nat) :
    o.result timeoutMs = .ok x := by
  rcases h with ⟨status, header, text, rfl, hindex, hdecode⟩
  rw [result, hdecode, hindex]
  rfl

theorem carries_of_result {o : Outcome} {x : Exchange} {timeoutMs : Nat}
    (h : o.result timeoutMs = .ok x) : o.Carries x := by
  cases o with
  | silent => cases h
  | failed isTimeout isConnect reason => cases isTimeout <;> cases h
  | response status header body =>
      cases body with
      | stalled => cases h
      | interrupted isTimeout reason => cases isTimeout <;> cases h
      | whole text =>
          rw [result] at h
          cases hdecode : Reply.decode status text with
          | error e =>
              rw [hdecode] at h
              cases h
          | ok reply =>
              rw [hdecode] at h
              cases h
              exact ⟨status, header, text, rfl, rfl, hdecode⟩

theorem Carries.isEndless_eq {o : Outcome} {x : Exchange} (h : o.Carries x) :
    o.isEndless = false := by
  rcases h with ⟨status, header, text, rfl, _⟩
  rfl

theorem Carries.isUnreachable_eq {o : Outcome} {x : Exchange}
    (h : o.Carries x) :
    o.isUnreachable = false := by
  rcases h with ⟨status, header, text, rfl, _⟩
  rfl

theorem Carries.unique {o : Outcome} {x y : Exchange} (hx : o.Carries x)
    (hy : o.Carries y) :
    x = y := by
  have h := hx.result_eq 0
  rw [hy.result_eq 0] at h
  cases h
  rfl

end Outcome

/-!
# The endpoint that took a request

The outcome of a request is what one of the endpoints made of it, in a state
that earlier endpoints may have left behind.
-/

section

variable {σ : Type} {send : Transport σ} {P : σ -> Prop}

theorem contact_cons (r : KeyRequest) (e f : Endpoint) (rest : List Endpoint)
    (s : σ) :
    contact send r (e :: f :: rest) s =
      if (send (r.at e) s).1.isUnreachable then
        contact send r (f :: rest) (send (r.at e) s).2
      else send (r.at e) s := by
  show (if (send (r.at e) s).1.isUnreachable then contact send r (f :: rest)
    else pure (send (r.at e) s).1 : StateM σ Outcome) (send (r.at e) s).2 = _
  cases (send (r.at e) s).1.isUnreachable <;> rfl

theorem contact_of_settled {r : KeyRequest} {e : Endpoint}
    {rest : List Endpoint} {s : σ}
    (h : (send (r.at e) s).1.isUnreachable = true -> rest = []) :
    contact send r (e :: rest) s = send (r.at e) s := by
  cases rest with
  | nil => rfl
  | cons f rest =>
      rw [contact_cons, if_neg]
      intro hunreachable
      cases h hunreachable

theorem contact_of_carries {r : KeyRequest} {e : Endpoint} {s : σ}
    {x : Exchange} (h : (send (r.at e) s).1.Carries x) (rest : List Endpoint) :
    contact send r (e :: rest) s = send (r.at e) s := by
  apply contact_of_settled
  rw [h.isUnreachable_eq]
  exact fun hunreachable => absurd hunreachable Bool.false_ne_true

/-- Whatever sending keeps still holds of the state in which the request was
taken. -/
theorem contact_eq_send (hkeep : forall q s, P s -> P (send q s).2)
    (r : KeyRequest) {endpoints : List Endpoint} {s : σ} (hne : endpoints ≠ [])
    (hs : P s) :
    exists e t, e ∈ endpoints ∧ P t ∧
      contact send r endpoints s = send (r.at e) t := by
  induction endpoints generalizing s with
  | nil => exact absurd rfl hne
  | cons e rest ih =>
      cases rest with
      | nil => exact ⟨e, s, List.mem_singleton_self e, hs, rfl⟩
      | cons f rest =>
          rw [contact_cons]
          cases (send (r.at e) s).1.isUnreachable with
          | false => exact ⟨e, s, List.mem_cons_self, hs, rfl⟩
          | true =>
              rcases ih (List.cons_ne_nil f rest) (hkeep _ s hs) with
                ⟨g, t, hg, ht, heq⟩
              exact ⟨g, t, List.mem_cons_of_mem e hg, ht, heq⟩

theorem contact_keeps (hkeep : forall q s, P s -> P (send q s).2)
    (r : KeyRequest) (endpoints : List Endpoint) {s : σ} (hs : P s) :
    P (contact send r endpoints s).2 := by
  cases hendpoints : endpoints with
  | nil => exact hs
  | cons e rest =>
      rcases contact_eq_send hkeep r (List.cons_ne_nil e rest) hs with
        ⟨f, t, _, ht, heq⟩
      rw [heq]
      exact hkeep _ t ht

end

theorem Client.exchange_eq {σ : Type} (c : Client) (send : Transport σ)
    (r : KeyRequest) (s : σ) :
    c.exchange send r s =
      ((contact send r c.endpoints s).1.result c.timeoutMs,
        (contact send r c.endpoints s).2) :=
  rfl

/-!
# A single endpoint
-/

def singleEndpoint : Endpoint :=
  ⟨"http", .domain ['e'], none, ['/'], none⟩

def singleClient : Client :=
  ⟨[singleEndpoint], 5000⟩

theorem contact_single {σ : Type} (send : Transport σ)
    (r : KeyRequest) (s : σ) :
    contact send r singleClient.endpoints s = send (r.at singleEndpoint) s :=
  rfl

end FairLease.Etcd
