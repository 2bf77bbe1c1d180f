import FairLease.Json.Record
import FairLease.Store.Event
import FairLease.Store.Request

/-!
# JSON forms of the store types

Every record is an object with its fields in a fixed order. Commands are tagged
with their kind, actions are written by name, and a missing remaining lifetime
is left out.
-/

namespace FairLease

open Json

def Json.ofText? (s : Option String) : Json :=
  ofOption string s

def Json.ofNat? (n : Option Nat) : Json :=
  ofOption ofNat n

/-!
## Actions and events
-/

def Action.toJson (a : Action) : Json :=
  string a.name

def Action.ofJson? (j : Json) : Option Action :=
  bareTag j >>= Action.ofName?

def Event.toJson (e : Event) : Json :=
  object [("action", e.action.toJson), ("key", string e.key),
    ("value", ofText? e.value), ("index", ofNat e.index)]

def Event.ofJson? (j : Json) : Option Event := do
  match ← cells [field "action", field "key", field "value",
    field "index"] j with
  | [action, key, value, index] =>
      return { action := ← required Action.ofJson? action, key := ← required string? key
               value := ← optional string? value,
               index := ← required (unsigned? 64) index }
  | _ => none

/-!
## Commands
-/

def Command.fields : Command -> String × List (String × Json)
  | .set key value => ("Set", [("key", string key), ("value", string value)])
  | .setWithTtl key value ttlMs =>
      ("SetWithTTL", [("key", string key), ("value", string value),
        ("ttl_ms", ofNat ttlMs)])
  | .createWithTtl key value ttlMs =>
      ("CreateWithTTL", [("key", string key), ("value", string value),
        ("ttl_ms", ofNat ttlMs)])
  | .compareAndSwap key expected newValue =>
      ("CompareAndSwap", [("key", string key), ("expected", ofText? expected),
        ("new_value", string newValue)])
  | .compareAndSwapWithTtl key expected newValue ttlMs =>
      ("CompareAndSwapWithTTL", [("key", string key),
        ("expected", string expected), ("new_value", string newValue),
          ("ttl_ms", ofNat ttlMs)])
  | .delete key => ("Delete", [("key", string key)])

def Command.toJson (c : Command) : Json :=
  object [(c.fields.1, object c.fields.2)]

def Command.setOfJson? (j : Json) : Option Command := do
  match ← cells [field "key", field "value"] j with
  | [key, value] =>
      return .set (← required string? key) (← required string? value)
  | _ => none

def Command.leasedOfJson? (make : String -> String -> Nat -> Command)
    (j : Json) :
    Option Command := do
  match ← cells [field "key", field "value", field "ttl_ms"] j with
  | [key, value, ttlMs] =>
      return make (← required string? key) (← required string? value)
        (← required (unsigned? 64) ttlMs)
  | _ => none

def Command.swapOfJson? (j : Json) : Option Command := do
  match ← cells [field "key", field "expected", field "new_value"] j with
  | [key, expected, newValue] =>
      return .compareAndSwap (← required string? key)
        (← optional string? expected) (← required string? newValue)
  | _ => none

def Command.leasedSwapOfJson? (j : Json) : Option Command := do
  match ← cells [field "key", field "expected", field "new_value",
    field "ttl_ms"] j with
  | [key, expected, newValue, ttlMs] =>
      return .compareAndSwapWithTtl (← required string? key)
        (← required string? expected)
        (← required string? newValue) (← required (unsigned? 64) ttlMs)
  | _ => none

def Command.deleteOfJson? (j : Json) : Option Command := do
  match ← cells [field "key"] j with
  | [key] => return .delete (← required string? key)
  | _ => none

def Command.ofTagged? (tag : String) (content : Json) : Option Command :=
  match tag with
  | "Set" => setOfJson? content
  | "SetWithTTL" => leasedOfJson? setWithTtl content
  | "CreateWithTTL" => leasedOfJson? createWithTtl content
  | "CompareAndSwap" => swapOfJson? content
  | "CompareAndSwapWithTTL" => leasedSwapOfJson? content
  | "Delete" => deleteOfJson? content
  | _ => none

def Command.ofJson? (j : Json) : Option Command :=
  match tagged j with
  | some (tag, some content) => Command.ofTagged? tag content
  | _ => none

def Command.ofNamedFields? (j : Json) : Option Command :=
  match tagged j with
  | some (tag, some (object members)) => Command.ofTagged? tag (object members)
  | _ => none

/-!
## Records
-/

def KeyValue.toJson (kv : KeyValue) : Json :=
  object ([("key", string kv.key), ("value", string kv.value),
    ("create_revision", ofNat kv.createRevision),
    ("mod_revision", ofNat kv.modRevision)] ++ match kv.ttlRemainingMs with
       | none => []
       | some ms => [("ttl_remaining_ms", ofNat ms)])

def KeyValue.ofJson? (j : Json) : Option KeyValue := do
  match ← cells [field "key", field "value", field "create_revision",
    field "mod_revision",
      fieldWithDefault "ttl_remaining_ms"] j with
  | [key, value, createRevision, modRevision, ttl] =>
      return { key := ← required string? key, value := ← required string? value
               createRevision := ← required (unsigned? 64) createRevision
               modRevision := ← required (unsigned? 64) modRevision
               ttlRemainingMs := ← optional (unsigned? 64) ttl }
  | _ => none

def ReadRequest.toJson (r : ReadRequest) : Json :=
  object [("key", string r.key)]

def ReadRequest.ofJson? (j : Json) : Option ReadRequest := do
  match ← cells [field "key"] j with
  | [key] => return ⟨← required string? key⟩
  | _ => none

def ReadResult.toJson (r : ReadResult) : Json :=
  object [("kv", ofOption KeyValue.toJson r.entry)]

def ReadResult.ofJson? (j : Json) : Option ReadResult := do
  match ← cells [field "kv"] j with
  | [entry] => return ⟨← optional KeyValue.ofJson? entry⟩
  | _ => none

def DeleteRequest.toJson (r : DeleteRequest) : Json :=
  object [("key", string r.key)]

def DeleteRequest.ofJson? (j : Json) : Option DeleteRequest := do
  match ← cells [field "key"] j with
  | [key] => return ⟨← required string? key⟩
  | _ => none

def DeleteResult.toJson (r : DeleteResult) : Json :=
  object [("key", string r.key), ("is_deleted", bool r.isDeleted)]

def DeleteResult.ofJson? (j : Json) : Option DeleteResult := do
  match ← cells [field "key", field "is_deleted"] j with
  | [key, isDeleted] =>
      return ⟨← required string? key, ← required bool? isDeleted⟩
  | _ => none

def ScanRequest.toJson (r : ScanRequest) : Json :=
  object [("prefix", string r.lead), ("limit", ofNat? r.limit),
    ("continuation_token", ofText? r.after)]

def ScanRequest.ofJson? (j : Json) : Option ScanRequest := do
  match ← cells [field "prefix", field "limit",
    field "continuation_token"] j with
  | [lead, limit, after] =>
      return { lead := ← required string? lead, limit := ← optional (unsigned? 32) limit
               after := ← optional string? after }
  | _ => none

def ScanResult.toJson (r : ScanResult) : Json :=
  object [("entries", array (r.entries.map KeyValue.toJson)),
    ("count", ofNat r.count), ("is_truncated", bool r.isTruncated),
    ("continuation_token", ofText? r.continuation)]

def ScanResult.ofJson? (j : Json) : Option ScanResult := do
  match ← cells [field "entries", field "count", field "is_truncated",
      field "continuation_token"] j with
  | [entries, count, isTruncated, continuation] =>
      return { entries := ← required (listOf KeyValue.ofJson?) entries
               count := ← required (unsigned? 32) count
               isTruncated := ← required bool? isTruncated
               continuation := ← optional string? continuation }
  | _ => none

def WatchRequest.toJson (r : WatchRequest) : Json :=
  object [("prefix", string r.lead)]

def WatchRequest.ofJson? (j : Json) : Option WatchRequest := do
  match ← cells [field "prefix"] j with
  | [lead] => return ⟨← required string? lead⟩
  | _ => none

def WriteRequest.toJson (r : WriteRequest) : Json :=
  object [("command", r.command.toJson)]

def WriteRequest.ofJson? (j : Json) : Option WriteRequest := do
  match ← cells [field "command"] j with
  | [command] => return ⟨← required Command.ofJson? command⟩
  | _ => none

def WriteResult.toJson (r : WriteResult) : Json :=
  object [("command", ofOption Command.toJson r.command),
    ("revision", ofNat? r.revision), ("prev_value", ofText? r.prevValue)]

def WriteResult.ofJson? (j : Json) : Option WriteResult := do
  match ← cells [field "command", field "revision", field "prev_value"] j with
  | [command, revision, prevValue] =>
      return { command := ← optional Command.ofJson? command
               revision := ← optional (unsigned? 64) revision
               prevValue := ← optional string? prevValue }
  | _ => none

end FairLease
