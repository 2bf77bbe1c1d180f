import FairLease.Etcd.Endpoint
import FairLease.Etcd.Reply
import FairLease.Text.Digits

/-!
# Exchanges with a cluster

A request is offered to the endpoints in turn. One that cannot be connected to
passes the request on; whatever else happens at an endpoint is the outcome of
the request, so that no request is carried out twice.
-/

namespace FairLease.Etcd

/-!
## Requests
-/

inductive Method where
  | get
  | put
  | delete
  deriving DecidableEq, Repr

def Method.name : Method -> String
  | get => "GET"
  | put => "PUT"
  | delete => "DELETE"

/-- A request on a key, before it is known which endpoint will take it. -/
structure KeyRequest where
  method : Method
  key : String
  query : List (String × String)
  form : List (String × String)
  deriving DecidableEq, Repr

structure HttpRequest where
  method : Method
  host : Url.Host
  port : Option Nat
  target : String
  form : String
  deriving DecidableEq, Repr

def KeyRequest.at (r : KeyRequest) (e : Endpoint) : HttpRequest :=
  let url := (e.keyUrl r.key).withQuery r.query
  { method := r.method, host := url.host, port := url.effectivePort
    target := Endpoint.target url,
    form := String.ofList (Url.formPairs r.form) }

/-!
## Outcomes
-/

/-- The body of a response, as far as it got. -/
inductive Body where
  | whole (text : String)
  | interrupted (isTimeout : Bool) (reason : String)
  /-- The end of the body is never sent. -/
  | stalled
  deriving DecidableEq, Repr

inductive Outcome where
  | response (status : Nat) (indexHeader : Option String) (body : Body)
  | failed (isTimeout isConnect : Bool) (reason : String)
  /-- Nothing is ever sent back. -/
  | silent
  deriving DecidableEq, Repr

structure Exchange where
  clusterIndex : Option Nat
  reply : Reply

/-- Blanks around the value of a header do not belong to it. -/
def headerValue (header : String) : String :=
  let isPadding := fun c => c == ' ' || c == '\t'
  String.ofList ((header.toList.dropWhile isPadding).reverse.dropWhile
    isPadding).reverse

/-- A header that is no number of 64 bits counts as absent. -/
def readIndex (header : Option String) : Option Nat :=
  header.bind (fun text => Text.unsigned? 64 (headerValue text))

namespace Outcome

/-- The endpoint could not be connected to, so that the next one may be
tried. -/
def isUnreachable : Outcome -> Bool
  | failed false true _ => true
  | _ => false

def isEndless : Outcome -> Bool
  | silent => true
  | response _ _ .stalled => true
  | _ => false

/-- What an outcome means to a client that waits `timeoutMs` for it. -/
def result (timeoutMs : Nat) : Outcome -> Except StoreError Exchange
  | silent => .error (.timeout timeoutMs)
  | failed true _ _ => .error (.timeout timeoutMs)
  | failed false _ reason => .error (.unavailable reason)
  | response _ _ .stalled => .error (.timeout timeoutMs)
  | response _ _ (.interrupted true _) => .error (.timeout timeoutMs)
  | response _ _ (.interrupted false reason) => .error (.unavailable reason)
  | response status indexHeader (.whole text) =>
      (Reply.decode status text).map (fun reply =>
        ⟨readIndex indexHeader, reply⟩)

end Outcome

/-!
## Failover
-/

/-- Something that sends requests, and changes as it does. -/
abbrev Transport (σ : Type) : Type :=
  HttpRequest -> StateM σ Outcome

/-- Offer a request to the endpoints in turn. The outcome is that of the last
endpoint contacted. -/
def contact {σ : Type} (send : Transport σ) (r : KeyRequest) :
    List Endpoint -> StateM σ Outcome
  | [] => return .failed false true "no etcd endpoints"
  | [e] => send (r.at e)
  | e :: f :: rest => do
      let outcome ← send (r.at e)
      if outcome.isUnreachable then contact send r (f :: rest)
      else return outcome

end FairLease.Etcd
