import FairLease.Json.Record
import FairLease.Store.Event
import FairLease.Store.Request

/-!
# Replies of the keys API

The API answers with a node of the key tree: a leaf with a value, or a
directory with further nodes. A request that is refused is answered with an
error code.
-/

namespace FairLease.Etcd

inductive Node where
  | mk (key : String) (value : Option String) (isDirectory : Bool)
      (children : List Node)
      (createdIndex modifiedIndex : Nat) (ttlSeconds : Option Int)
  deriving Inhabited

namespace Node

def key : Node -> String
  | mk key _ _ _ _ _ _ => key

def value : Node -> Option String
  | mk _ value _ _ _ _ _ => value

def isDirectory : Node -> Bool
  | mk _ _ isDirectory _ _ _ _ => isDirectory

def children : Node -> List Node
  | mk _ _ _ children _ _ _ => children

def createdIndex : Node -> Nat
  | mk _ _ _ _ createdIndex _ _ => createdIndex

def modifiedIndex : Node -> Nat
  | mk _ _ _ _ _ modifiedIndex _ => modifiedIndex

def ttlSeconds : Node -> Option Int
  | mk _ _ _ _ _ _ ttlSeconds => ttlSeconds

/-- Seconds as milliseconds of 64 bits. A lifetime that is over counts as
zero. -/
def remainingMs (ttlSeconds : Int) : Nat :=
  min (ttlSeconds.toNat * 1000) (wordSize 64 - 1)

/-- A leaf without a value has the empty one. -/
def leafEntry (n : Node) : KeyValue :=
  { key := n.key, value := n.value.getD "", createRevision := n.createdIndex
    modRevision := n.modifiedIndex,
    ttlRemainingMs := n.ttlSeconds.map remainingMs }

def entry? (n : Node) : Option KeyValue :=
  if n.isDirectory then none else some n.leafEntry

mutual

/-- The leaves under a node. Only directories are looked into. -/
def leaves : Node -> List KeyValue
  | mk key value isDirectory children createdIndex modifiedIndex ttlSeconds =>
      if isDirectory then leavesOfAll children
      else [(mk key value isDirectory [] createdIndex modifiedIndex
        ttlSeconds).leafEntry]

def leavesOfAll : List Node -> List KeyValue
  | [] => []
  | n :: rest => leaves n ++ leavesOfAll rest

end

/-- The fields of a node. All but the key have defaults. -/
def fields : List Json.Field :=
  [Json.field "key", Json.fieldWithDefault "value", Json.fieldWithDefault "dir",
    Json.fieldWithDefault "nodes", Json.fieldWithDefault "createdIndex",
    Json.fieldWithDefault "modifiedIndex", Json.fieldWithDefault "ttl"]

/-- Read a node whose JSON nests at most as deep as given. -/
def ofJson? : Nat -> Json -> Option Node
  | 0, _ => none
  | depth + 1, j => do
      match ← Json.cells fields j with
      | [key, value, isDirectory, children, createdIndex, modifiedIndex, ttl] =>
          return mk (← Json.required Json.string? key)
            (← Json.optional Json.string? value)
            (← Json.withDefault false Json.bool? isDirectory)
            (← Json.withDefault [] (Json.listOf (ofJson? depth)) children)
            (← Json.withDefault 0 (Json.unsigned? 64) createdIndex)
            (← Json.withDefault 0 (Json.unsigned? 64) modifiedIndex)
            (← Json.optional Json.signed? ttl)
      | _ => none

end Node

/-!
## Results
-/

structure Response where
  action : String
  node : Node
  prevNode : Option Node

namespace Response

def event? (r : Response) : Option Event :=
  (Action.ofName? r.action).map (fun action =>
    { action, key := r.node.key, value := r.node.value, index := r.node.modifiedIndex })

def ofJson? (j : Json) : Option Response := do
  match ← Json.cells [Json.field "action", Json.field "node",
    Json.fieldWithDefault "prevNode"] j with
  | [action, node, prevNode] =>
      return { action := ← Json.required Json.string? action
               node := ← Json.required (Node.ofJson? Json.maxDepth) node
               prevNode := ← Json.optional
                 (Node.ofJson? Json.maxDepth) prevNode }
  | _ => none

end Response

/-!
## Errors
-/

structure ErrorBody where
  code : Nat
  text : String
  cause : Option String
  index : Option Nat
  deriving DecidableEq, Repr

namespace ErrorBody

def keyNotFound : Nat :=
  100

def testFailed : Nat :=
  101

def nodeExists : Nat :=
  105

def historyCleared : Nat :=
  401

/-- The error of a store for a code that has no meaning of its own there. -/
def toStoreError (e : ErrorBody) : StoreError :=
  .failed ("etcd error " ++ toString e.code ++ ": " ++ e.text ++
    match e.cause with
    | none => ""
    | some cause => " (" ++ cause ++ ")")

def ofJson? (j : Json) : Option ErrorBody := do
  match ← Json.cells [Json.field "errorCode", Json.fieldWithDefault "message",
      Json.fieldWithDefault "cause", Json.fieldWithDefault "index"] j with
  | [code, text, cause, index] =>
      return { code := ← Json.required (Json.unsigned? 64) code
               text := ← Json.withDefault "" Json.string? text
               cause := ← Json.optional Json.string? cause
               index := ← Json.optional (Json.unsigned? 64) index }
  | _ => none

end ErrorBody
end FairLease.Etcd
