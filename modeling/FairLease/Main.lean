import FairLease.CommandLine.Help
import FairLease.Service.Work
import Std.Async.Signal
import Std.Async.System

/-!
# The command

Starts a node and works it in step with the clock until a signal arrives. The
command has no network of its own, so that no cluster can be reached from it.
-/

namespace FairLease.Service

open Simulation

def programName : String :=
  "ipclaim-node"

def variableNames : List String :=
  ["IPCLAIM_IFACE", "IPCLAIM_MASK", "IPCLAIM_HOSTNAME", "IPCLAIM_IPMANAGER",
    "IPCLAIM_STORE_BACKEND", "IPCLAIM_ETCD_ENDPOINTS",
    "IPCLAIM_REQUEST_TIMEOUT_MS", "IPCLAIM_TTL_MS", "IPCLAIM_RENEW_INTERVAL_MS",
    "IPCLAIM_PREFIX", "IPCLAIM_CIDRS"]

def readEnvironment : IO (String -> Option String) := do
  let pairs ← variableNames.filterMapM (fun name => do
    return (← IO.getEnv name).map (fun value => (name, value)))
  return (pairs.lookup ·)

def readFiles (words : List String) : IO (String -> Option String) := do
  match (CommandLine.parse words).toOption.bind (·.config) with
  | none => return fun _ => none
  | some path =>
      let text ← (some <$> IO.FS.readFile path) <|> pure none
      return fun name => if name = path then text else none

def readSurroundings (words : List String) : IO Surroundings := do
  return { environment := ← readEnvironment, files := ← readFiles words
           machine := ← Std.Async.System.getHostName }

def StartError.print (e : StartError) : IO Unit := do
  match e.explanation?, e with
  | some (_, cause), _ =>
      IO.eprintln (e.headline?.getD "" ++ "\n\nCaused by:\n    " ++ cause)
  | none, .usage .displayHelp => IO.println (CommandLine.helpText programName)
  | none, .usage reason =>
      IO.eprintln ("error: " ++ reason.message ++ "\n\nFor more information, try '--help'.")
  | none, _ => return

/-- The time in milliseconds between two looks at the clock. -/
def pollMs : Nat :=
  20

/-- Work the node in step with the clock until a signal arrives. -/
partial def workUntil {W σ : Type} (b : Backend W σ)
    (signals : List (Signal × IO Bool)) (clock : Nat) (r : Running W σ) :
    IO (Signal × Running W σ) := do
  for (signal, hasArrived) in signals do
    if ← hasArrived then return (signal, r)
  IO.sleep pollMs.toUInt32
  let now ← IO.monoMsNow
  workUntil b signals now (r.elapse b (.ofMillis (now - clock)))

def await (signal : Std.Async.Signal) : IO (IO Bool) := do
  let waiter ← Std.Async.Signal.Waiter.mk signal false
  let arrival ← waiter.wait
  return IO.hasFinished arrival

def work {W σ : Type} (b : Backend W σ) (store : σ) (n : Node) : IO Unit := do
  let signals :=
    [(Signal.interrupt, ← await .sigint), (Signal.terminate, ← await .sigterm)]
  let r := Running.start b store n
  IO.eprintln ("initial claim pass finished, granted " ++
    toString r.granted ++ " of " ++
    toString n.served.size)
  let (signal, r) ← workUntil b signals (← IO.monoMsNow) r
  IO.eprintln ("received " ++ signal.name ++ ", initiating graceful shutdown")
  if (r.stop b).isOver then IO.eprintln "node stopped"

end FairLease.Service

open FairLease Service in
def main (words : List String) : IO UInt32 := do
  match start (← readSurroundings words) words with
  | .error e =>
      e.print
      return e.exitStatus.toUInt32
  | .ok s =>
      match s.client with
      | none => work Simulation.memoryBackend .empty s.node
      | some c => work (Simulation.scriptBackend c Simulation.Script.refuse) ⟨[], []⟩ s.node
      return 0
