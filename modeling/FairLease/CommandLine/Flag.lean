import FairLease.Config.Layers

/-!
# Flags of the command line

Every flag takes one value. Two of them add to a list, and one of these takes
several values at once, separated by commas. The others may be given once.
-/

namespace FairLease.CommandLine

inductive Flag where
  | config
  | iface
  | mask
  | hostname
  | manager
  | store
  | endpoints
  | requestTimeoutMs
  | ttlMs
  | renewIntervalMs
  | root
  | cidrs
  deriving DecidableEq, Repr

namespace Flag

def name : Flag -> String
  | config => "config"
  | iface => "iface"
  | mask => "mask"
  | hostname => "hostname"
  | manager => "ipmanager"
  | store => "store-backend"
  | endpoints => "etcd"
  | requestTimeoutMs => "request-timeout-ms"
  | ttlMs => "ttl-ms"
  | renewIntervalMs => "renew-interval-ms"
  | root => "prefix"
  | cidrs => "cidr"

def help : Flag -> String
  | config => "Path to TOML configuration file"
  | iface => "Interface the claimed addresses are assigned to"
  | mask => "Mask appended to bare addresses"
  | hostname => "Consumer id for claims (defaults to the OS hostname)"
  | manager => "Allocation backend: noop (default) or fair"
  | store => "Coordination store: etcd (default) or memory"
  | endpoints => "etcd endpoint URL. Repeat or comma separate for several"
  | requestTimeoutMs =>
      "Per-request timeout for the coordination store, in milliseconds"
  | ttlMs => "Claim lifetime without renewal, in milliseconds"
  | renewIntervalMs =>
      "Renewal period, in milliseconds. Must be shorter than the TTL"
  | root => "Key namespace for claims"
  | cidrs => "Address or CIDR this node serves. Repeat for several"

def all : List Flag :=
  [config, iface, mask, hostname, manager, store, endpoints, requestTimeoutMs,
    ttlMs, renewIntervalMs, root, cidrs]

def ofName? (name : String) : Option Flag :=
  all.find? (fun flag => flag.name == name)

end Flag

/-!
## Values
-/

/-- Why the command line is not used. Asking for help is one of the reasons. -/
inductive UsageError where
  | displayHelp
  | unknownArgument
  /-- A value is missing, or empty where it must not be. -/
  | missingValue
  | invalidValue
  | repeatedFlag
  | unexpectedValue
  deriving DecidableEq, Repr

structure Arguments where
  config : Option String
  iface : Option String
  mask : Option Nat
  hostname : Option String
  manager : Option ManagerKind
  store : Option StoreKind
  endpoints : List String
  requestTimeoutMs : Option Nat
  ttlMs : Option Nat
  renewIntervalMs : Option Nat
  root : Option String
  cidrs : List String
  deriving DecidableEq, Repr

namespace Arguments

def none : Arguments :=
  { config := .none, iface := .none, mask := .none, hostname := .none, manager := .none
    store := .none, endpoints := [], requestTimeoutMs := .none, ttlMs := .none
    renewIntervalMs := .none, root := .none, cidrs := [] }

/-- The value of a flag that may be given once. -/
def once {α : Type} (old : Option α) (value : Option α) :
    Except UsageError (Option α) :=
  if old.isSome then .error .repeatedFlag
  else
    match value with
    | .none => .error .invalidValue
    | some v => .ok (some v)

/-- A mask, which may be zero with a minus sign. -/
def mask? (text : String) : Option Nat :=
  match text.toList with
  | '-' :: digits =>
      if !digits.isEmpty && digits.all (· == '0') then some 0 else .none
  | _ => Text.unsigned? 8 text

def set (flag : Flag) (value : String) (a : Arguments) :
    Except UsageError Arguments := do
  match flag with
  | .config =>
      if a.config.isSome then .error .repeatedFlag
      if value.isEmpty then .error .missingValue
      return { a with config := some value }
  | .iface => return { a with iface := ← once a.iface (some value) }
  | .mask => return { a with mask := ← once a.mask (mask? value) }
  | .hostname => return { a with hostname := ← once a.hostname (some value) }
  | .manager => return { a with manager := ← once a.manager (ManagerKind.ofText? value) }
  | .store => return { a with store := ← once a.store (StoreKind.ofText? value) }
  | .endpoints =>
      let parts := (Text.splitAt ',' value.toList).map String.ofList
      return { a with endpoints := a.endpoints ++ parts }
  | .requestTimeoutMs =>
      return { a with requestTimeoutMs := ← once a.requestTimeoutMs (Text.unsigned? 64 value) }
  | .ttlMs => return { a with ttlMs := ← once a.ttlMs (Text.unsigned? 64 value) }
  | .renewIntervalMs =>
      return { a with renewIntervalMs := ← once a.renewIntervalMs (Text.unsigned? 64 value) }
  | .root => return { a with root := ← once a.root (some value) }
  | .cidrs => return { a with cidrs := a.cidrs ++ [value] }

end Arguments
end FairLease.CommandLine
