import FairLease.Config.Build
import FairLease.Simulation.Cluster

/-!
# Starting a node

A node starts from its command line and its surroundings. Whatever keeps it from
starting is decided before it touches a store.
-/

namespace FairLease.Service

structure Surroundings where
  environment : String -> Option String
  /-- The files that can be read. -/
  files : String -> Option String
  machine : String

/-!
## Errors
-/

inductive StartError where
  | usage (e : CommandLine.UsageError)
  | config (e : ConfigError)
  | endpoint (e : Etcd.EndpointError)
  | manager (e : ClaimError)

namespace StartError

/-- To be asked for help is no failure. -/
def exitStatus : StartError -> Nat
  | usage .displayHelp => 0
  | usage _ => 2
  | config _ => 1
  | endpoint _ => 1
  | manager _ => 1

/-- What went wrong, and why. An error of usage is explained in another way. -/
def explanation? : StartError -> Option (String × String)
  | usage _ => none
  | config e => some (e.context, e.message)
  | endpoint e => some ("failed to create etcd client", e.message)
  | manager e => some ("failed to create allocation manager", e.message)

def headline? (e : StartError) : Option String :=
  e.explanation?.map (fun x => "Error: " ++ x.1)

end StartError

/-!
## Starting
-/

/-- A node that is ready to work, with its client if it keeps its claims on a
cluster. -/
structure Setup where
  config : NodeConfig
  client : Option Etcd.Client
  node : Simulation.Node

def clientOf (c : NodeConfig) : Except StartError (Option Etcd.Client) :=
  if c.manager = .fair ∧ c.store = .etcd then
    ((Etcd.Client.new c.endpoints c.requestTimeoutMs).mapError .endpoint).map
      some
  else .ok none

def policyOf : ManagerKind -> Simulation.Policy
  | .noop => .granting
  | .fair => .fair

def nodeOf (machine : String) (c : NodeConfig) :
    Except StartError Simulation.Node :=
  (Simulation.Node.new (policyOf c.manager) (c.uid machine)
    c.served c.settings).mapError .manager

def start (s : Surroundings) (words : List String) :
    Except StartError Setup := do
  let a ← (CommandLine.parse words).mapError .usage
  let c ← (NodeConfig.build (.ofEnvironment s.environment)
      s.files a).mapError .config
  let client ← clientOf c
  let node ← nodeOf s.machine c
  return { config := c, client, node }

end FairLease.Service
