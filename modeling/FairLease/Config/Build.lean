import FairLease.CommandLine.Parser
import FairLease.Config.File
import FairLease.Config.Layers
import FairLease.Config.Validation

/-!
# Building a configuration

The environment, a file and the command line are put on top of each other, and
the result is checked.
-/

namespace FairLease

/-- The layer of the command line, in which a flag that is not given has its
default. -/
def NodeConfig.ofArguments (a : CommandLine.Arguments) : NodeConfig :=
  let d := NodeConfig.default
  { iface := a.iface.getD d.iface, mask := a.mask.getD d.mask, hostname := a.hostname
    manager := a.manager.getD d.manager, store := a.store.getD d.store,
    endpoints := a.endpoints
    requestTimeoutMs := a.requestTimeoutMs.getD d.requestTimeoutMs
    ttlMs := a.ttlMs.getD d.ttlMs,
    renewIntervalMs := a.renewIntervalMs.getD d.renewIntervalMs
    root := a.root.getD d.root, cidrs := a.cidrs }

/-- The layer of a file, of which the text is given if it can be read. -/
def NodeConfig.load (text : Option String) : Except ConfigError NodeConfig :=
  match text with
  | none => .error .unreadableFile
  | some text =>
      match NodeConfig.ofFile? text with
      | none => .error .malformedFile
      | some c => .ok c

def ConfigError.context : ConfigError -> String
  | unreadableFile => "failed to load configuration file"
  | malformedFile => "failed to load configuration file"
  | invalid _ => "invalid node configuration"

namespace NodeConfig

def layered (environment : NodeConfig) (fileText? : String -> Option String)
    (a : CommandLine.Arguments) : Except ConfigError NodeConfig :=
  match a.config with
  | none => .ok (environment.merge (ofArguments a))
  | some path =>
      (load (fileText? path)).map (fun file =>
        (environment.merge file).merge (ofArguments a))

def build (environment : NodeConfig) (fileText? : String -> Option String)
    (a : CommandLine.Arguments) : Except ConfigError NodeConfig := do
  let c ← layered environment fileText? a
  c.validate
  return c

end NodeConfig
end FairLease
