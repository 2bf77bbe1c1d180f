import FairLease.Simulation.Run

/-!
# Working a simulation

What can be asked of the nodes of a simulation and of the store they share. Each
request is carried out at once, and then the tasks go on until all wait.
-/

namespace FairLease.Simulation

/-- A node whose settings make sense. -/
def Node.new (policy : Policy) (uid : String) (served : List String)
    (settings : ClaimSettings) :
    Except ClaimError Node :=
  (Manager.new settings).map (fun manager =>
    { uid, served := .ofList served, policy, manager, queue := .empty, link := .clear })

namespace World

variable {W σ : Type} (b : Backend W σ)

def start (store : σ) (nodes : List Node) : World W σ :=
  { now := 0, store, nodes := nodes.toArray, ready := [], blocked := [], nextId := 0
    results := [] }

def change (node : Nat) (f : Node -> Node) (w : World W σ) : World W σ :=
  settle b stepLimit { w with nodes := w.nodes.modify node f }

def onStore {α : Type} (f : Nat -> StateM σ α) (w : World W σ) :
    α × World W σ :=
  let (a, store) := f w.now w.store
  (a, settle b stepLimit { w with store })

def launch (node : Nat) (job : Job W) (w : World W σ) : Nat × World W σ :=
  (w.nextId, settle b stepLimit (w.spawn node job))

def result? (id : Nat) (w : World W σ) : Option Result :=
  w.results.lookup id

def stop (p : Job W -> Bool) (w : World W σ) : World W σ :=
  { w with ready := w.ready.filter (fun t => !p t.job)
           blocked := w.blocked.filter (fun t => !p t.job) }

/-!
## Jobs
-/

def claimJob (n : Node) (uid cidr : String) : Job W :=
  .admission (n.attempt uid cidr)

def ownerJob (cidr : String) : Job W :=
  match ClaimKey.validate cidr with
  | .error e => .finished (.owner (.error e))
  | .ok () => .asking cidr

def snapshotJob : Job W :=
  .listing .start

def passJob (n : Node) : Job W :=
  .pass (.start n.served)

/-- Handle one resource as if it came from the queue. -/
def reconcileJob (n : Node) (cidr : String) : Job W :=
  if n.served.contains cidr then .reconciling (n.attempt n.uid cidr)
  else .finished (.reconciled .notServed)

def watchJob (n : Node) : Job W :=
  .expiration (.start n.manager.settings)

def reconcilerJob (n : Node) : Job W :=
  .reconciler (.start n.served)

def sleepJob (time : Duration) (w : World W σ) : Job W :=
  .sleeping (ceilMillis (w.now + time.nanos))

def sweeperJob (interval : Duration) (w : World W σ) : Job W :=
  .sweeping (.startAt w.now interval)

def shutDown (node : Nat) (w : World W σ) : World W σ :=
  match w.nodes[node]? with
  | none => w
  | some n =>
      let (ids, manager) := n.manager.shutDown
      (w.setNode node { n with manager }).perform b node (.shuttingDown ids) |>.2

/-!
## Queues
-/

def cancel (n : Node) : Node :=
  { n with manager := n.manager.cancel }

def drain (n : Node) : List String × Node :=
  let (items, queue) := n.queue.drain
  (items, { n with queue })

end World
end FairLease.Simulation
