import FairLease.Proofs.Etcd.Exchange
import FairLease.Proofs.Etcd.Request
import FairLease.Proofs.Etcd.Wire
import FairLease.Proofs.Store.Keywise

/-!
# Leaves of a cluster

A cluster decides by the parameters of a request whether a leaf may change, and
says by the number of an error why not. The commands of a client are such
requests, and are refused for the reasons that the in-memory store has.
-/

namespace FairLease
namespace Etcd

/-!
# Requests as a cluster reads them

A request on a leaf asks for its value, or for a change under a condition. What
comes of it depends on the value that is there.
-/

inductive Condition where
  | always
  | absent
  | holds (value : String)
  deriving DecidableEq, Repr

inductive Demand where
  | get
  | put (condition : Condition) (value : String)
  | delete
  deriving DecidableEq, Repr

/-- The condition that two parameters of a request make, if it is one of these.
No value is compared with the empty one. -/
def Condition.read? : Option String -> Option String -> Option Condition
  | none, none => some always
  | some flag, none => if flag = "false" then some absent else none
  | none, some value => if value = "" then none else some (holds value)
  | some _, some _ => none

def Demand.read? (value : Option String) :
    Method -> Option Condition -> Option Demand
  | .get, some .always => some get
  | .put, some condition => value.map (put condition)
  | .delete, some .always => some delete
  | _, _ => none

namespace HttpRequest

def demand? (q : HttpRequest) : Option Demand :=
  Demand.read? (q.fields.lookup "value") q.method
    (Condition.read? (q.parameter "prevExist") (q.parameter "prevValue"))

def ttl? (q : HttpRequest) : Option String :=
  q.fields.lookup "ttl"

structure IsAbout (q : HttpRequest) (e : Endpoint) (key : String) : Prop where
  host : q.host = e.host
  port : q.port = e.effectivePort
  path : q.path = e.path ++ "v2/keys".toList ++ key.toList

end HttpRequest

/-!
# Verdicts

The value that is there decides whether a demand is met, and with which number
it is refused. The commands of a client are refused for the reasons that the
in-memory store has.
-/

namespace Demand

/-- The value that is left where there is one already, or the number of an
error. -/
def verdict (current : Option String) : Demand -> Except Nat (Option String)
  | get => if current = none then .error 100 else .ok current
  | put .always value => .ok (some value)
  | put .absent value => if current = none then .ok (some value) else .error 105
  | put (.holds expected) value =>
      if current = some expected then .ok (some value)
      else .error (if current = none then 100 else 101)
  | delete => if current = none then .error 100 else .ok none

def IsShownBy (r : Response) (current : Option String) : Demand -> Prop
  | get => r.node.isDirectory = false ∧ r.node.value = current
  | _ => r.prevNode.bind Node.value = current

/-- A reply to the demand where there is a value already, and the value that is
left. -/
inductive Due (d : Demand) (current : Option String) :
    Reply -> Option String -> Prop where
  | refusal {e : ErrorBody} : d.verdict current = .error e.code ->
      Due d current (.failure e) current
  | result {r : Response} {value : Option String} :
      d.verdict current = .ok value ->
      d.IsShownBy r current -> Due d current (.success r) value

def ofCommand : Command -> Demand
  | .set _ value => put .always value
  | .setWithTtl _ value _ => put .always value
  | .createWithTtl _ value _ => put .absent value
  | .compareAndSwap _ none newValue => put .absent newValue
  | .compareAndSwap _ (some expected) newValue => put (.holds expected) newValue
  | .compareAndSwapWithTtl _ expected newValue _ =>
      put (.holds expected) newValue
  | .delete _ => delete

variable {current : Option String} {code : Nat}

theorem Due.of_get {value : Option String} {reply : Reply}
    (h : get.Due current reply value) :
    value = current ∧
      ((current = none ∧ exists e, reply = .failure e ∧
        e.code = ErrorBody.keyNotFound) ∨
        (current ≠ none ∧
          exists r, reply = .success r ∧
            r.node.entry?.map (·.value) = current)) := by
  cases current with
  | none =>
      cases h with
      | @refusal e hcode =>
          exact ⟨rfl, Or.inl ⟨rfl, e, rfl, (Except.error.inj hcode).symm⟩⟩
      | result hvalue => cases hvalue
  | some v =>
      cases h with
      | refusal hcode => cases hcode
      | @result r _ hvalue hshown =>
          cases hvalue
          have hentry : r.node.entry?.map (·.value) = some v := by
            rw [Node.entry?, hshown.left, if_neg Bool.false_ne_true,
              Option.map_some, Node.leafEntry, hshown.right]
            rfl
          exact ⟨rfl, Or.inr ⟨Option.some_ne_none v, r, rfl, hentry⟩⟩

theorem Due.of_delete {value : Option String} {reply : Reply}
    (h : delete.Due current reply value) :
    value = none ∧
      ((current = none ∧ exists e, reply = .failure e ∧
        e.code = ErrorBody.keyNotFound) ∨
        (current.isSome = true ∧ exists r, reply = .success r)) := by
  cases current with
  | none =>
      cases h with
      | @refusal e hcode =>
          exact ⟨rfl, Or.inl ⟨rfl, e, rfl, (Except.error.inj hcode).symm⟩⟩
      | result hvalue => cases hvalue
  | some v =>
      cases h with
      | refusal hcode => cases hcode
      | @result r _ hvalue =>
          cases hvalue
          exact ⟨rfl, Or.inr ⟨rfl, r, rfl⟩⟩

theorem prevNode_of_isShownBy {command : Command} {r : Response}
    (h : (ofCommand command).IsShownBy r current) :
    r.prevNode.bind Node.value = current := by
  cases command with
  | compareAndSwap key expected newValue => cases expected <;> exact h
  | _ => exact h

theorem verdict_absent {value : String}
    (h : (put .absent value).verdict current = .error code) :
    current ≠ none ∧ code = ErrorBody.nodeExists := by
  cases current with
  | none => cases h
  | some found =>
      cases h
      exact ⟨Option.some_ne_none found, rfl⟩

theorem verdict_holds {expected value : String}
    (h : (put (.holds expected) value).verdict current = .error code) :
    current ≠ some expected ∧
      (code = ErrorBody.testFailed ∨ code = ErrorBody.keyNotFound) := by
  simp only [verdict] at h
  split at h
  · cases h
  · rename_i hne
    have hcode := Except.error.inj h
    split at hcode
    · exact ⟨hne, Or.inr hcode.symm⟩
    · exact ⟨hne, Or.inl hcode.symm⟩

theorem verdict_holds_ok {expected value : String} {left : Option String}
    (h : (put (.holds expected) value).verdict current = .ok left) :
    current = some expected ∧ left = some value := by
  simp only [verdict] at h
  split at h
  · rename_i heq
    exact ⟨heq, (Except.ok.inj h).symm⟩
  · cases h

theorem refusal_cases {command : Command}
    (h : (ofCommand command).verdict current = .error code) :
    (exists key value ttlMs, command = .createWithTtl key value ttlMs ∧
        code = ErrorBody.nodeExists ∧
          command.valueAfter current = .error (.keyExists key)) ∨
      (exists key expected newValue, command =
        .compareAndSwap key expected newValue ∧
        (code = ErrorBody.nodeExists ∨ code = ErrorBody.testFailed ∨
          code = ErrorBody.keyNotFound) ∧
        command.valueAfter current =
          .error (.compareFailed key expected current)) ∨
      (exists key expected newValue ttlMs,
        command = .compareAndSwapWithTtl key expected newValue ttlMs ∧
        (code = ErrorBody.testFailed ∨ code = ErrorBody.keyNotFound) ∧
        command.valueAfter current =
          .error (.compareFailed key (some expected) current)) ∨
      (exists key, command = .delete key ∧ code = ErrorBody.keyNotFound ∧
        command.valueAfter current = .error (.notFound key)) := by
  cases command with
  | set | setWithTtl => cases h
  | createWithTtl key value ttlMs =>
      rcases verdict_absent h with ⟨hsome, hcode⟩
      rcases Option.ne_none_iff_exists'.mp hsome with ⟨found, rfl⟩
      exact Or.inl ⟨key, value, ttlMs, rfl, hcode, rfl⟩
  | compareAndSwap key expected newValue =>
      refine Or.inr (Or.inl ⟨key, expected, newValue, rfl, ?_⟩)
      cases expected with
      | none =>
          rcases verdict_absent h with ⟨hne, hcode⟩
          exact ⟨Or.inl hcode,
            by rw [Command.valueAfter, Command.effect, if_pos hne]; rfl⟩
      | some expected =>
          rcases verdict_holds h with ⟨hne, hcode⟩
          exact ⟨Or.inr hcode,
            by rw [Command.valueAfter, Command.effect, if_pos hne]; rfl⟩
  | compareAndSwapWithTtl key expected newValue ttlMs =>
      rcases verdict_holds h with ⟨hne, hcode⟩
      exact Or.inr (Or.inr (Or.inl ⟨key, expected, newValue, ttlMs, rfl, hcode,
        by rw [Command.valueAfter, Command.effect, if_neg hne]; rfl⟩))
  | delete key =>
      cases current with
      | none =>
          cases h
          exact Or.inr (Or.inr (Or.inr ⟨key, rfl, rfl, rfl⟩))
      | some found => cases h

/-- What is not refused leaves the value that the in-memory store has then. -/
theorem valueAfter_of_verdict {command : Command} {value : Option String}
    (h : (ofCommand command).verdict current = .ok value) :
    command.valueAfter current = .ok value := by
  cases command with
  | set | setWithTtl =>
      cases h
      rfl
  | createWithTtl key value ttlMs =>
      cases current with
      | none =>
          cases h
          rfl
      | some found => cases h
  | compareAndSwap key expected newValue =>
      cases expected with
      | none =>
          cases current with
          | none =>
              cases h
              rfl
          | some found => cases h
      | some expected =>
          rcases verdict_holds_ok h with ⟨rfl, rfl⟩
          rw [Command.valueAfter, Command.effect, if_neg (not_not_intro rfl),
            if_neg (Option.some_ne_none expected)]
          rfl
  | compareAndSwapWithTtl key expected newValue ttlMs =>
      rcases verdict_holds_ok h with ⟨rfl, rfl⟩
      rw [Command.valueAfter, Command.effect, if_pos rfl]
      rfl
  | delete key =>
      cases current with
      | none => cases h
      | some found =>
          cases h
          rfl

end Demand

/-!
# What a client asks for

The requests of a client are read as they are meant, and about the very key that
they were made for.
-/

/-- The address of the endpoint sets no condition. -/
def Endpoint.LeavesConditionsAlone (e : Endpoint) : Prop :=
  forall name, name ∈ ["prevExist", "prevValue"] ->
    e.parameters.lookup name = none

namespace KeyRequest

variable {e : Endpoint}

theorem isAbout_at (he : e.IsDirectory) {r : KeyRequest}
    (hkey : IsKeptKey r.key) :
    (r.at e).IsAbout e r.key := by
  constructor
  · rfl
  · rfl
  · rw [path_at, path_keyUrl he hkey]

theorem demand?_at (he : e.LeavesConditionsAlone) (r : KeyRequest) :
    (r.at e).demand? = Demand.read? (r.form.lookup "value") r.method
      (Condition.read? (r.query.lookup "prevExist")
        (r.query.lookup "prevValue")) := by
  rw [HttpRequest.demand?, parameter_at r e (he "prevExist" (by simp)),
    parameter_at r e (he "prevValue" (by simp)), fields_at]
  rfl

theorem demand?_ofRead (he : e.LeavesConditionsAlone) (key : String) :
    ((ofRead key).at e).demand? = some .get := by
  rw [demand?_at he]
  rfl

theorem demand?_ofDelete (he : e.LeavesConditionsAlone) (key : String) :
    ((ofDelete key).at e).demand? = some .delete := by
  rw [demand?_at he]
  rfl

theorem demand?_ofCommand (he : e.LeavesConditionsAlone) {c : Command}
    (hc : c.expectation ≠ some "") :
    ((ofCommand c).at e).demand? = some (.ofCommand c) := by
  rw [demand?_at he]
  cases c with
  | set | setWithTtl | createWithTtl | delete => rfl
  | compareAndSwap key expected newValue =>
      cases expected with
      | none => rfl
      | some expected =>
          have hread : Condition.read? none (some expected) =
              some (.holds expected) :=
            if_neg fun h => hc (congrArg some h)
          exact congrArg (Demand.read? (some newValue) .put) hread
  | compareAndSwapWithTtl key expected newValue ttlMs =>
      have hread : Condition.read? none (some expected) =
          some (.holds expected) :=
        if_neg fun h => hc (congrArg some h)
      exact congrArg (Demand.read? (some newValue) .put) hread

end KeyRequest

theorem key_ofCommand (command : Command) :
    (KeyRequest.ofCommand command).key = command.key := by
  cases command with
  | compareAndSwap key expected newValue => cases expected <;> rfl
  | _ => rfl

/-!
# Servers of leaves

A server answers the requests on some leaves as is due, and changes nothing but
the leaf that a request is about. That no value lapses is part of this.
-/

/-- In the states that satisfy `P` the endpoints of a client answer every
request on the leaves `keys`, whose values are `held`. -/
def Serves {σ : Type} (c : Client) (send : Transport σ) (keys : String -> Prop)
    (held : σ -> String -> Option String) (P : σ -> Prop) : Prop :=
  forall e q s key d, e ∈ c.endpoints -> P s -> keys key -> q.IsAbout e key ->
    q.demand? = some d ->
    P (send q s).2 ∧
    exists x value, (send q s).1.Carries x ∧ d.Due (held s key) x.reply value ∧
      forall k, keys k -> held (send q s).2 k = if key = k then value
        else held s k

def leaf (key : String) (value : Option String) : Node :=
  .mk key value false [] 1 1 none

/-- A server that has the values of all keys and goes by the verdict on each
demand. -/
def leafServer : Transport (String -> Option String) := fun q held =>
  let key := String.ofList (q.path.drop "/v2/keys".length)
  match q.demand? with
  | none => (.response 400 none (.whole ""), held)
  | some d =>
      match d.verdict (held key) with
      | .error code =>
          let e : ErrorBody := ⟨code, "refused", some key, none⟩
          (.response 400 none (.whole e.toJson.compact), held)
      | .ok value =>
          let r : Response :=
            ⟨q.method.name, leaf key value,
              (held key).map (fun v => leaf key (some v))⟩
          (.response 200 none (.whole r.toJson.compact), fun k =>
            if key = k then value else held k)

theorem Demand.verdict_error_lt {d : Demand} {current : Option String}
    {code : Nat} (h : d.verdict current = .error code) :
    code < wordSize 64 := by
  have hword : 105 < wordSize 64 := by decide +kernel
  have hbound : code ≤ 105 := by
    cases d with
    | get | delete =>
        cases current <;> cases h
        decide
    | put condition value =>
        cases condition with
        | always => cases h
        | absent => exact Nat.le_of_eq (verdict_absent h).right
        | holds expected =>
            rcases (verdict_holds h).right with
              hcode | hcode <;> rw [hcode] <;> decide
  exact Nat.lt_of_le_of_lt hbound hword

theorem fits_leaf (key : String) (value : Option String) :
    (leaf key value).Fits 63 := by
  have hword : 1 < wordSize 64 := by decide +kernel
  exact Node.fits_mk_iff.mpr ⟨by simp, hword, hword, by simp⟩

theorem serves_leafServer (keys : String -> Prop) :
    Serves singleClient leafServer keys (fun held => held) (fun _ => True) := by
  intro e q held key d he _ _ habout hdemand
  have hpath : String.ofList (q.path.drop "/v2/keys".length) = key := by
    rw [habout.path, List.mem_singleton.mp he]
    exact String.ofList_toList
  refine ⟨trivial, ?_⟩
  unfold leafServer
  simp only [hpath, hdemand]
  cases hverdict : d.verdict (held key) with
  | error code =>
      refine ⟨⟨none, .failure ⟨code, "refused", some key, none⟩⟩, held key,
        ⟨400, none, _, rfl, rfl,
          Reply.decode_error (Demand.verdict_error_lt hverdict) (by simp) 400⟩,
        .refusal hverdict, ?_⟩
      intro k _
      exact (ite_eq_right_iff.mpr (congrArg held)).symm
  | ok value =>
      let r : Response :=
        ⟨q.method.name, leaf key value,
          (held key).map (fun v => leaf key (some v))⟩
      have hfits : r.Fits := by
        refine ⟨fits_leaf key value, ?_⟩
        intro n hn
        rcases Option.map_eq_some_iff.mp hn with ⟨v, _, rfl⟩
        exact fits_leaf key (some v)
      have hshown : d.IsShownBy r (held key) := by
        have hprev : r.prevNode.bind Node.value = held key := by
          show ((held key).map _).bind _ = _
          cases held key <;> rfl
        cases d with
        | get =>
            have hvalue : value = held key := by
              cases hheld : held key <;> rw [hheld] at hverdict <;>
                cases hverdict
              rfl
            exact ⟨rfl, hvalue⟩
        | put condition value => exact hprev
        | delete => exact hprev
      exact ⟨⟨none, .success r⟩, value,
        ⟨200, none, _, rfl, rfl, Reply.decode_response hfits 200⟩,
        .result hverdict hshown, fun _ _ => rfl⟩

end Etcd
end FairLease
