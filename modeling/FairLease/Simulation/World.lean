import FairLease.Claim.Expiration
import FairLease.Claim.Manager
import FairLease.Claim.Reconciler
import FairLease.Simulation.Backend
import FairLease.Simulation.Link

/-!
# Simulated nodes and their tasks

A simulation consists of nodes on one store and of the tasks they have started.
A task goes on by itself until it waits: for a point in time, for an event, for
the queue of its node, or for renewals to end.
-/

namespace FairLease.Simulation

inductive Policy where
  | fair
  /-- Everything is granted and no store is asked. -/
  | granting
  deriving DecidableEq, Repr

structure Node where
  uid : String
  served : Served
  policy : Policy
  manager : Manager
  queue : WorkQueue String
  link : Link

def Node.attempt (n : Node) (uid cidr : String) : Admission :=
  match n.policy with
  | .fair => n.manager.attempt uid cidr
  | .granting => .granted uid cidr

inductive Result where
  | claim (result : Except ClaimError Bool)
  | owner (result : Except ClaimError (Option String))
  | snapshot (result : Except ClaimError Snapshot)
  | granted (count : Nat)
  | reconciled (outcome : ReconcileOutcome)
  | done

inductive Job (W : Type) where
  | admission (a : Admission)
  | reconciling (a : Admission)
  | asking (cidr : String)
  | listing (l : Listing)
  | pass (p : ClaimPass)
  | renewal (id : Nat)
  | expiration (x : Expiration W)
  | reconciler (r : Reconciler)
  | sweeping (t : Ticker)
  | shuttingDown (ids : List Nat)
  | sleeping (wakeAt : Nat)
  | finished (result : Result)

def Job.isSweeping {W : Type} : Job W -> Bool
  | sweeping _ => true
  | _ => false

inductive Stage (W : Type) where
  | idle
  | entering (wakeAt : Nat) (fault : Fault) (call : StoreCall W)
  | listening (w : W)
  | leaving (wakeAt : Nat) (reply : StoreReply W)

structure Task (W : Type) where
  id : Nat
  node : Nat
  job : Job W
  stage : Stage W

structure World (W σ : Type) where
  /-- The time since the start in nanoseconds. -/
  now : Nat
  store : σ
  nodes : Array Node
  /-- The tasks that can go on, in the order in which they became able to. -/
  ready : List (Task W)
  /-- The tasks that wait, in the order in which they began to. -/
  blocked : List (Task W)
  nextId : Nat
  results : List (Nat × Result)

/-!
## What tasks wait for
-/

inductive Wait (W : Type) where
  | nothing
  | alarm (wakeAt : Nat)
  | news (w : W)
  | wakeup (heard : Nat)
  | renewals (ids : List Nat)

def Job.wait {W : Type} (n : Node) : Job W -> Wait W
  | renewal id =>
      match n.manager.registry.renewal? id with
      | some r => if r.phase = .waiting then .alarm r.ticker.alarm else .nothing
      | none => .nothing
  | expiration x =>
      match x.phase with
      | .pausing _ wakeAt => .alarm wakeAt
      | _ => .nothing
  | reconciler r =>
      match r.phase with
      | .fetching (.waiting heard) => .wakeup heard
      | _ => .nothing
  | sweeping t => .alarm t.alarm
  | shuttingDown ids => .renewals ids
  | sleeping wakeAt => .alarm wakeAt
  | _ => .nothing

def Task.wait {W : Type} (n : Node) (t : Task W) : Wait W :=
  match t.stage with
  | .idle => t.job.wait n
  | .entering wakeAt _ _ => .alarm wakeAt
  | .listening w => .news w
  | .leaving wakeAt _ => .alarm wakeAt

/-- The task ends as soon as its node is cancelled. -/
def Job.canCancel {W : Type} (n : Node) : Job W -> Bool
  | renewal id => (n.manager.registry.renewal? id).any Renewal.canCancel
  | expiration _ => true
  | _ => false

section

variable {W σ : Type} (b : Backend W σ)

def Wait.isOver (w : World W σ) (n : Node) : Wait W -> Bool
  | nothing => true
  | alarm wakeAt => decide (wakeAt ≤ w.now)
  | news watcher => b.hasNews watcher w.store
  | wakeup heard => n.manager.isCancelled || decide (heard < n.queue.wakeups)
  | renewals ids => ids.all (fun id => !n.manager.registry.isRunning id)

def World.canGoOn (w : World W σ) (t : Task W) : Bool :=
  match w.nodes[t.node]? with
  | none => false
  | some n =>
      (n.manager.isCancelled && t.job.canCancel n) || (t.wait n).isOver b w n

end

/-!
## Calls
-/

def callOfAdmission? {W : Type} (n : Node) (a : Admission) :
    Option (StoreCall W) :=
  match a.phase with
  | .listing (.reading _ after) =>
      some (.scan (Listing.request n.manager.settings after))
  | .creating => some (.write (a.command n.manager.settings))
  | _ => none

def Job.call? {W : Type} (n : Node) : Job W -> Option (StoreCall W)
  | admission a => callOfAdmission? n a
  | reconciling a => callOfAdmission? n a
  | asking cidr => some (.read (ClaimKey.ofCidr n.manager.settings.root cidr))
  | listing (.reading _ after) =>
      some (.scan (Listing.request n.manager.settings after))
  | pass p => p.current.bind (callOfAdmission? n)
  | renewal id =>
      match n.manager.registry.renewal? id with
      | none => none
      | some r =>
          match r.phase with
          | .swapping => some (.write r.command)
          | .rereading _ => some (.read r.lease.key)
          | _ => none
  | expiration x =>
      match x.phase with
      | .subscribing => some (.watch n.manager.settings.root)
      | .listening w => some (.next w)
      | _ => none
  | reconciler r =>
      match r.phase with
      | .attempting a => callOfAdmission? n a
      | _ => none
  | _ => none

def receiveAdmission {W : Type} (n : Node) (reply : StoreReply W)
    (a : Admission) : Admission :=
  match reply with
  | .listed page => a.listed n.manager.settings page
  | .written result => a.created result
  | _ => a

def updateRenewal (id : Nat) (f : Renewal -> Renewal) (n : Node) : Node :=
  { n with manager := { n.manager with registry := n.manager.registry.update id f } }

/-- The random part of a retry delay, which a simulation leaves out. -/
def jitterSeed : Nat :=
  0

/-- Hand the answer to its call to a job. An event goes to the queue of the
node. -/
def Job.receive {W : Type} (now : Nat) (reply : StoreReply W) (n : Node) :
    Job W -> Job W × Node
  | admission a => (admission (receiveAdmission n reply a), n)
  | reconciling a => (reconciling (receiveAdmission n reply a), n)
  | pass p => (pass { p with current := p.current.map (receiveAdmission n reply) }, n)
  | reconciler r =>
      match r.phase with
      | .attempting a =>
          (reconciler { r with phase := .attempting (receiveAdmission n reply a) }, n)
      | _ => (reconciler r, n)
  | listing l =>
      match reply with
      | .listed page => (listing (l.receive n.manager.settings.root page), n)
      | _ => (listing l, n)
  | renewal id =>
      match reply with
      | .written result => (renewal id, updateRenewal id (·.swapped result) n)
      | .found result => (renewal id, updateRenewal id (·.reread result) n)
      | _ => (renewal id, n)
  | expiration x =>
      match reply with
      | .subscribed result =>
          (expiration (x.subscribed now jitterSeed result), n)
      | .notified result w =>
          (expiration (x.notified now jitterSeed result w),
            match result with
            | .ok e => { n with queue := Expiration.handle n.manager.settings.root e n.queue }
            | .error _ => n)
      | _ => (expiration x, n)
  | asking cidr =>
      match reply with
      | .found (.ok found) =>
          (finished (.owner (.ok (found.entry.map (·.value)))), n)
      | .found (.error e) => (finished (.owner (.error (.storage e))), n)
      | _ => (asking cidr, n)
  | job => (job, n)

/-!
## Results
-/

def Job.result? {W : Type} (n : Node) : Job W -> Option Result
  | admission a => a.result?.map .claim
  | reconciling a => a.result?.map (fun r => .reconciled (.ofResult r))
  | listing (.finished result) => some (.snapshot result)
  | pass p => if p.isFinished then some (.granted p.granted) else none
  | renewal id => if n.manager.registry.isRunning id then none else some .done
  | expiration x =>
      match x.phase with
      | .stopped => some .done
      | _ => none
  | reconciler r =>
      match r.phase with
      | .stopped => some .done
      | _ => none
  | finished result => some result
  | _ => none

end FairLease.Simulation
