import FairLease.Etcd.Node
import FairLease.Json.Parser

/-!
# Decoding replies

A reply is an error or a result, in this order, whatever its status says. A
body that is neither is an error of its own.
-/

namespace FairLease.Etcd

inductive Reply where
  | failure (error : ErrorBody)
  | success (response : Response)

namespace Reply

def ofJson? (j : Json) : Option Reply :=
  match ErrorBody.ofJson? j with
  | some e => some (.failure e)
  | none => (Response.ofJson? j).map .success

/-- The value is looked at before what follows it, which must be blank. -/
def decode (status : Nat) (body : String) : Except StoreError Reply :=
  match Json.readSound body.toList with
  | none => .error (.undecodable status .malformed)
  | some (j, rest) =>
      match ofJson? j with
      | none => .error (.undecodable status .unexpected)
      | some reply =>
          if (Json.skipBlank rest).isEmpty then .ok reply
          else .error (.undecodable status .malformed)

end Reply

/-- A lifetime in whole seconds: not shorter than asked for, and at least
one. -/
def ttlSeconds (ttlMs : Nat) : Nat :=
  max 1 ((ttlMs + 999) / 1000)

end FairLease.Etcd
