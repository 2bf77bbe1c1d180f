import FairLease.Config.Basic
import FairLease.Toml.Parser

/-!
# Configuration files

A configuration file is a TOML text with the fields of a configuration. All of
them may be left out, and what is not known is ignored.
-/

namespace FairLease

open Toml

/-- A choice is given by its name, or as a table whose only key is the name. -/
def choiceName? : Value -> Option String
  | .string name => some name
  | .table _ [(name, .table _ [])] => some name
  | .table _ [(name, .array [])] => some name
  | _ => none

def textValue? : Value -> Option String
  | .string s => some s
  | _ => none

def textsValue? : Value -> Option (List String)
  | .array items => items.mapM textValue?
  | _ => none

def unsignedValue? (bits : Nat) : Value -> Option Nat
  | .integer (.ofNat n) => if n < wordSize bits then some n else none
  | _ => none

/-- The value of a field, or the default if the field is left out. -/
def fieldValue {α : Type} (m : Members) (name : String) (default : α)
    (read : Value -> Option α) :
    Option α :=
  match m.lookup name with
  | none => some default
  | some v => read v

def NodeConfig.ofMembers? (m : Members) : Option NodeConfig := do
  let d := NodeConfig.default
  return { iface := ← fieldValue m "iface" d.iface textValue?
           mask := ← fieldValue m "mask" d.mask (unsignedValue? 8)
           hostname := ← fieldValue m "hostname" d.hostname
             (fun v => (textValue? v).map some)
           manager := ← fieldValue m "ipmanager" d.manager
             (fun v => (choiceName? v).bind ManagerKind.ofName?)
           store := ← fieldValue m "store_backend" d.store
             (fun v => (choiceName? v).bind StoreKind.ofName?)
           endpoints := ← fieldValue m "etcd_endpoints" d.endpoints textsValue?
           requestTimeoutMs := ← fieldValue m "request_timeout_ms"
             d.requestTimeoutMs (unsignedValue? 64)
           ttlMs := ← fieldValue m "ttl_ms" d.ttlMs (unsignedValue? 64)
           renewIntervalMs := ← fieldValue m "renew_interval_ms"
             d.renewIntervalMs (unsignedValue? 64)
           root := ← fieldValue m "prefix" d.root textValue?
           cidrs := ← fieldValue m "cidrs" d.cidrs textsValue? }

def NodeConfig.ofFile? (text : String) : Option NodeConfig :=
  (Toml.parse? text).bind ofMembers?

end FairLease
