import FairLease.Config.Basic

/-!
# Validity of a configuration

A configuration is checked as a whole before a node is started with it. The
first defect in a fixed order is reported.
-/

namespace FairLease

inductive ConfigDefect where
  | emptyIface
  | maskOutOfRange (mask : Nat)
  | emptyHostname
  | zeroRequestTimeout
  | noEndpoints
  /-- The settings of the manager, or a served identifier, make no sense. -/
  | claims (error : ClaimError)
  deriving DecidableEq, Repr

def ConfigDefect.message : ConfigDefect -> String
  | emptyIface => "iface must not be empty"
  | maskOutOfRange mask => "mask " ++ toString mask ++ " is out of range"
  | emptyHostname => "hostname must not be empty"
  | zeroRequestTimeout => "request_timeout_ms must be non-zero"
  | noEndpoints =>
      "the fair ipmanager on the etcd backend needs at least one etcd endpoint"
  | claims error => error.message

inductive ConfigError where
  | unreadableFile
  | malformedFile
  | invalid (defect : ConfigDefect)
  deriving DecidableEq, Repr

namespace ConfigError

def kind : ConfigError -> String
  | unreadableFile => "ReadFile"
  | malformedFile => "ParseToml"
  | invalid _ => "Validation"

/-- The message, without the part that comes from the system or the file. -/
def message : ConfigError -> String
  | unreadableFile => "failed to read config file"
  | malformedFile => "failed to parse TOML config file"
  | invalid defect => "configuration validation failed: " ++ defect.message

end ConfigError

namespace NodeConfig

def maxMask : Nat :=
  128

def servedDefect? (c : NodeConfig) : Option ClaimError :=
  c.served.findSome? (fun cidr => (ClaimKey.defect? cidr).map .invalidClaim)

def defect? (c : NodeConfig) : Option ConfigDefect :=
  if c.iface.isEmpty then some .emptyIface
  else if maxMask < c.mask then some (.maskOutOfRange c.mask)
  else if c.hostname = some "" then some .emptyHostname
  else if c.requestTimeoutMs = 0 then some .zeroRequestTimeout
  else if c.manager = .fair ∧ c.store = .etcd ∧ c.endpoints = [] then
    some .noEndpoints
  else
    match c.settings.defect? with
    | some defect => some (.claims (.invalidSettings defect))
    | none => c.servedDefect?.map .claims

def validate (c : NodeConfig) : Except ConfigError Unit :=
  match c.defect? with
  | some defect => .error (.invalid defect)
  | none => .ok ()

end NodeConfig
end FairLease
