import FairLease.Service.Startup

/-!
# The work of a node

A node claims what it serves once, takes over claims that disappear as long as
it runs, and on a signal ends all its tasks before it stops itself.
-/

namespace FairLease.Service

open Simulation

inductive Signal where
  | interrupt
  | terminate
  deriving DecidableEq, Repr

def Signal.name : Signal -> String
  | interrupt => "SIGINT"
  | terminate => "SIGTERM"

def sweepInterval : Duration :=
  .ofMillis 100

/-- A node at work: the tasks it has started, and what its first pass was
granted. -/
structure Running (W σ : Type) where
  world : World W σ
  tasks : List Nat
  granted : Nat

namespace Running

variable {W σ : Type} (b : Backend W σ)

def nodeId : Nat :=
  0

def begin (store : σ) (n : Node) : Running W σ :=
  { world := World.start store [n], tasks := [], granted := 0 }

/-- Start a task that has to end before the node does. -/
def launch (job : Job W) (r : Running W σ) : Running W σ :=
  let (id, world) := r.world.launch b nodeId job
  { r with world, tasks := r.tasks ++ [id] }

/-- Sweep the store from now on. A cluster removes by itself what has lapsed,
and the sweeper has nothing to finish. -/
def sweep (r : Running W σ) : Running W σ :=
  { r with world := (r.world.launch b nodeId (World.sweeperJob sweepInterval r.world)).2 }

def firstPass (n : Node) (r : Running W σ) : Running W σ :=
  match r.world.perform b nodeId (World.passJob n) with
  | (some (.granted count), world) => { r with world, granted := count }
  | (_, world) => { r with world }

/-- Claims that disappear are only watched by a node that asks for its
claims. -/
def start (store : σ) (n : Node) : Running W σ :=
  let r := begin store n
  let r :=
    if n.policy = .fair then ((r.sweep b).launch b (World.watchJob n)) else r
  (r.firstPass b n).launch b (World.reconcilerJob n)

def elapse (time : Duration) (r : Running W σ) : Running W σ :=
  { r with world := (r.world.perform b nodeId (World.sleepJob time r.world)).2 }

/-- Cancel the node, close its queue and wait for its renewals to end. -/
def stop (r : Running W σ) : Running W σ :=
  let close := fun (n : Node) => { World.cancel n with queue := n.queue.shutDown }
  { r with world := ((r.world.change b nodeId close).shutDown b nodeId).stop Job.isSweeping }

def isOver (r : Running W σ) : Bool :=
  r.tasks.all (fun id => (r.world.result? id).isSome)

end Running

/-!
## A whole life
-/

structure Report where
  granted : Nat
  served : Nat
  /-- All tasks ended before the node did. -/
  isOrderly : Bool
  deriving DecidableEq, Repr

/-- A node that is stopped right after its first pass. -/
def report {W σ : Type} (b : Backend W σ) (store : σ) (n : Node) : Report :=
  let r := Running.start b store n
  { granted := r.granted, served := n.served.size, isOrderly := (r.stop b).isOver }

/-- The report of a node from whose place no cluster can be reached. -/
def Setup.report (s : Setup) : Report :=
  match s.client with
  | none => Service.report memoryBackend .empty s.node
  | some c => Service.report (scriptBackend c Script.refuse) ⟨[], []⟩ s.node

end FairLease.Service
