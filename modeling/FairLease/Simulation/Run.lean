import FairLease.Simulation.World

/-!
# Running a simulation

Tasks that can go on do so in turn, each until it waits; a task that stops
waiting queues up behind the others. Time stands still as long as a task can go
on. When none can, the clock may be moved to the next point in time that a task
waits for.
-/

namespace FairLease.Simulation

variable {W σ : Type} (b : Backend W σ)

/-- Tasks of one simulation make at most this many steps without an answer. -/
def stepLimit : Nat :=
  1000000000000

/-!
## Tasks
-/

namespace World

def setNode (id : Nat) (n : Node) (w : World W σ) : World W σ :=
  { w with nodes := w.nodes.setIfInBounds id n }

def spawn (node : Nat) (job : Job W) (w : World W σ) : World W σ :=
  { w with ready := w.ready ++ [⟨w.nextId, node, job, .idle⟩], nextId := w.nextId + 1 }

/-- Tasks that have stopped waiting queue up behind those that can go on. -/
def wake (w : World W σ) : World W σ :=
  let (woken, blocked) := w.blocked.partition (w.canGoOn b)
  { w with ready := w.ready ++ woken, blocked }

/-- Start the renewal of an admitted claim, unless one is running. -/
def register (node : Nat) (n : Node) (a : Admission) (w : World W σ) :
    Node × World W σ :=
  match n.manager.register w.now a with
  | (some id, manager) => ({ n with manager }, (w.wake b).spawn node (.renewal id))
  | (none, manager) => ({ n with manager }, w)

end World

def stepAdmission (node : Nat) (a : Admission) (n : Node) (w : World W σ) :
    Admission × Node × World W σ :=
  match a.phase with
  | .registering =>
      let (n, w) := w.register b node n a
      (a.registered, n, w)
  | _ => (a, n, w)

def Job.step (node : Nat) (n : Node) (w : World W σ) :
    Job W -> Job W × Node × World W σ
  | admission a =>
      let (a, n, w) := stepAdmission b node a n w
      (admission a, n, w)
  | reconciling a =>
      let (a, n, w) := stepAdmission b node a n w
      (reconciling a, n, w)
  | pass p =>
      match p.current with
      | none => (pass (p.advance n.manager.isCancelled (n.attempt n.uid)), n, w)
      | some a =>
          match a.result? with
          | some result => (pass (p.settle result), n, w)
          | none =>
              let (a, n, w) := stepAdmission b node a n w
              (pass { p with current := some a }, n, w)
  | reconciler r =>
      match r.phase with
      | .attempting a =>
          match a.result? with
          | some _ => (reconciler r.settle, n, w)
          | none =>
              let (a, n, w) := stepAdmission b node a n w
              (reconciler { r with phase := .attempting a }, n, w)
      | _ =>
          let (r, queue) :=
            r.fetch n.manager.isCancelled (n.attempt n.uid) n.queue
          (reconciler r, { n with queue }, w)
  | renewal id =>
      match (n.manager.registry.renewal? id).map Renewal.phase with
      | some Renewal.Phase.waiting =>
          (renewal id, updateRenewal id (·.tick w.now) n, w)
      | some (Renewal.Phase.releasing _) =>
          let registry := n.manager.registry.release id
          (renewal id, { n with manager := { n.manager with registry } }, w)
      | _ => (renewal id, updateRenewal id (·.finish) n, w)
  | expiration x => (expiration (x.resume w.now), n, w)
  | sweeping t => (sweeping (t.skip w.now), n, { w with store := b.sweep w.now w.store })
  | shuttingDown _ => (finished .done, n, w)
  | sleeping _ => (finished .done, n, w)
  | job => (job, n, w)

def Job.cancel (n : Node) : Job W -> Job W × Node
  | renewal id => (renewal id, updateRenewal id (·.cancel) n)
  | expiration x => (expiration x.cancel, n)
  | job => (job, n)

/-!
## Calls
-/

def Task.deliver (reply : StoreReply W) (n : Node) (t : Task W)
    (w : World W σ) :
    Task W × World W σ :=
  let (job, n) := t.job.receive w.now reply n
  ({ t with job, stage := .idle }, w.setNode t.node n)

def Task.listen (watcher : W) (n : Node) (t : Task W) (w : World W σ) :
    Task W × World W σ :=
  match b.next watcher w.store with
  | ((some result, watcher), store) =>
      t.deliver (.notified result watcher) n { w with store }
  | ((none, watcher), store) => ({ t with stage := .listening watcher }, { w with store })

def askStore (call : StoreCall W) (now : Nat) :
    StateM σ (Option (StoreReply W)) := do
  match call with
  | .write command => return some (.written (← b.write now command))
  | .read key => return some (.found (← b.read now key))
  | .scan r => return some (.listed (← b.scan now r))
  | .watch lead => return some (.subscribed (← b.watch lead))
  | .next _ => return none

/-- Hold an answer back for as long as a fault says. -/
def Task.leave (fault : Fault) (reply : StoreReply W) (n : Node) (t : Task W)
    (w : World W σ) :
    Task W × World W σ :=
  if fault.afterMs = 0 then t.deliver reply n w
  else ({ t with stage := .leaving (w.now + fault.afterMs * 1000000) reply }, w)

def Task.arrive (fault : Fault) (call : StoreCall W) (n : Node) (t : Task W)
    (w : World W σ) :
    Task W × World W σ :=
  match fault.error with
  | some e => t.leave fault (call.failure e) n w
  | none =>
      match askStore b call w.now w.store with
      | (some reply, store) => t.leave fault reply n { w with store }
      | (none, store) => (t, { w with store })

/-- A call sets out. Questions for the next event are never delayed. -/
def Task.depart (call : StoreCall W) (n : Node) (t : Task W) (w : World W σ) :
    Task W × World W σ :=
  let (fault, link) := n.link.pass call.kind
  let n := { n with link }
  let w := w.setNode t.node n
  match call with
  | .next watcher =>
      match fault.error, fault.event with
      | some e, _ => t.deliver (.notified (.error e) watcher) n w
      | none, some e => t.deliver (.notified (.ok e) watcher) n w
      | none, none => t.listen b watcher n w
  | _ =>
      if fault.beforeMs = 0 then t.arrive b fault call n w
      else ({ t with stage := .entering (w.now + fault.beforeMs * 1000000) fault call }, w)

/-!
## Steps
-/

def Task.step (n : Node) (t : Task W) (w : World W σ) : Task W × World W σ :=
  if n.manager.isCancelled && t.job.canCancel n then
    let (job, n) := t.job.cancel n
    ({ t with job, stage := .idle }, w.setNode t.node n)
  else
    match t.stage with
    | .entering _ fault call => t.arrive b fault call n w
    | .listening watcher => t.listen b watcher n w
    | .leaving _ reply => t.deliver reply n w
    | .idle =>
        match t.job.call? n with
        | some call => t.depart b call n w
        | none =>
            let (job, n, w) := t.job.step b t.node n w
            ({ t with job }, w.setNode t.node n)

def Task.run : Nat -> Task W -> World W σ -> Task W × Option Result × World W σ
  | 0, t, w => (t, none, w)
  | fuel + 1, t, w =>
      match w.nodes[t.node]? with
      | none => (t, some .done, w)
      | some n =>
          match t.job.result? n with
          | some result => (t, some result, w)
          | none =>
              if w.canGoOn b t then
                let (t, w) := t.step b n w
                Task.run fuel t w
              else (t, none, w)

namespace World

def turn (t : Task W) (w : World W σ) : World W σ :=
  match t.run b stepLimit w with
  | (t, some result, w) => { w with results := (t.id, result) :: w.results }
  | (t, none, w) => { w with blocked := w.blocked ++ [t] }

def settle : Nat -> World W σ -> World W σ
  | 0, w => w
  | fuel + 1, w =>
      let w := w.wake b
      match w.ready with
      | [] => w
      | t :: rest => settle fuel (turn b t { w with ready := rest })

def nextAlarm? (w : World W σ) (tasks : List (Task W)) : Option Nat :=
  (tasks.filterMap (fun t =>
    match (w.nodes[t.node]?).map t.wait with
    | some (Wait.alarm wakeAt) => some wakeAt
    | _ => none)).min?

/-- Let a task go on until it has a result, moving the clock when nothing else
is left to do. The other tasks go on as they can. -/
def complete : Nat -> Task W -> World W σ -> Option Result × World W σ
  | 0, _, w => (none, w)
  | fuel + 1, t, w =>
      match t.run b stepLimit w with
      | (_, some result, w) => (some result, settle b stepLimit w)
      | (t, none, w) =>
          let w := settle b stepLimit w
          if w.canGoOn b t then complete fuel t w
          else
            match w.nextAlarm? (t :: w.blocked) with
            | none => (none, w)
            | some wakeAt => complete fuel t { w with now := max w.now wakeAt }

/-- Carry out a job at once, and let the other tasks go on after it. -/
def perform (node : Nat) (job : Job W) (w : World W σ) :
    Option Result × World W σ :=
  complete b stepLimit ⟨w.nextId, node, job, .idle⟩ { w with nextId := w.nextId + 1 }

end World
end FairLease.Simulation
