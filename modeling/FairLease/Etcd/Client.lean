import FairLease.Etcd.Exchange
import FairLease.Store.Request
import FairLease.Text.Affix

/-!
# A store on a cluster

The operations of a key-value store as requests of the keys API. A command that
the cluster refuses is an error of the store; the reason of a failed comparison
includes the value found by looking again.
-/

namespace FairLease.Etcd

/-!
## Operations as requests
-/

namespace KeyRequest

def ofRead (key : String) : KeyRequest :=
  ⟨.get, key, [], []⟩

def ofDelete (key : String) : KeyRequest :=
  ⟨.delete, key, [], []⟩

def ofListing (lead : String) : KeyRequest :=
  ⟨.get, lead, [("recursive", "true"), ("sorted", "true")], []⟩

/-- The condition that a key does not exist yet. -/
def absent : List (String × String) :=
  [("prevExist", "false")]

def holds (value : String) : List (String × String) :=
  [("prevValue", value)]

def leasedForm (value : String) (ttlMs : Nat) : List (String × String) :=
  [("value", value), ("ttl", toString (ttlSeconds ttlMs))]

def ofCommand : Command -> KeyRequest
  | .set key value => ⟨.put, key, [], [("value", value)]⟩
  | .setWithTtl key value ttlMs => ⟨.put, key, [], leasedForm value ttlMs⟩
  | .createWithTtl key value ttlMs =>
      ⟨.put, key, absent, leasedForm value ttlMs⟩
  | .compareAndSwap key none newValue =>
      ⟨.put, key, absent, [("value", newValue)]⟩
  | .compareAndSwap key (some expected) newValue =>
      ⟨.put, key, holds expected, [("value", newValue)]⟩
  | .compareAndSwapWithTtl key expected newValue ttlMs =>
      ⟨.put, key, holds expected, leasedForm newValue ttlMs⟩
  | .delete key => ofDelete key

end KeyRequest

/-!
## Clients
-/

structure Client where
  endpoints : List Endpoint
  timeoutMs : Nat

def Client.new (endpoints : List String) (timeoutMs : Nat) :
    Except EndpointError Client :=
  (Endpoint.parseAll endpoints).map (fun endpoints => ⟨endpoints, timeoutMs⟩)

variable {σ : Type} (c : Client) (send : Transport σ)

namespace Client

def exchange (r : KeyRequest) : StateM σ (Except StoreError Exchange) :=
  return (← contact send r c.endpoints).result c.timeoutMs

/-- The value of a key, or `none` if it has none or nobody can tell. -/
def currentValue (key : String) : StateM σ (Option String) := do
  match ← c.exchange send (.ofRead key) with
  | .ok ⟨_, .success response⟩ => return response.node.entry?.map (·.value)
  | _ => return none

def compareFailed (key : String) (expected : Option String) :
    StateM σ StoreError :=
  return .compareFailed key expected (← c.currentValue send key)

def refusal (command : Command) (e : ErrorBody) : StateM σ StoreError :=
  let isMissing := e.code == ErrorBody.keyNotFound
  let isOther := e.code == ErrorBody.testFailed
  let isPresent := e.code == ErrorBody.nodeExists
  match command with
  | .createWithTtl key _ _ =>
      if isPresent then return .keyExists key else return e.toStoreError
  | .compareAndSwap key expected _ =>
      if isPresent || isOther || isMissing then
        c.compareFailed send key expected
      else return e.toStoreError
  | .compareAndSwapWithTtl key expected _ _ =>
      if isOther || isMissing then c.compareFailed send key (some expected)
      else return e.toStoreError
  | .delete key =>
      if isMissing then return .notFound key else return e.toStoreError
  | _ => return e.toStoreError

/-- A command that is not valid is not sent. -/
def write (command : Command) : StateM σ (Except StoreError WriteResult) := do
  match command.validate with
  | .error e => return .error e
  | .ok () =>
      match ← c.exchange send (.ofCommand command) with
      | .error e => return .error e
      | .ok ⟨_, .success response⟩ =>
          return .ok { command := some command, revision := some response.node.modifiedIndex
                       prevValue := response.prevNode.bind Node.value }
      | .ok ⟨_, .failure e⟩ => return .error (← c.refusal send command e)

def read (key : String) : StateM σ (Except StoreError ReadResult) := do
  match ← c.exchange send (.ofRead key) with
  | .error e => return .error e
  | .ok ⟨_, .success response⟩ => return .ok ⟨response.node.entry?⟩
  | .ok ⟨_, .failure e⟩ =>
      if e.code == ErrorBody.keyNotFound then return .ok ⟨none⟩
      else return .error e.toStoreError

def delete (key : String) : StateM σ (Except StoreError DeleteResult) := do
  match (Command.delete key).validate with
  | .error e => return .error e
  | .ok () =>
      match ← c.exchange send (.ofDelete key) with
      | .error e => return .error e
      | .ok ⟨_, .success _⟩ => return .ok ⟨key, true⟩
      | .ok ⟨_, .failure e⟩ =>
          if e.code == ErrorBody.keyNotFound then return .ok ⟨key, false⟩
          else return .error e.toStoreError

end Client

/-!
## Listings

The API has no pages, so that each page is cut from the whole listing.
-/

def keyLe (a b : KeyValue) : Bool :=
  !decide (b.key < a.key)

/-- The entries of a listing that a request still has to report, in order. -/
def pendingEntries (r : ScanRequest) (entries : List KeyValue) :
    List KeyValue :=
  ((entries.filter (fun kv => Text.startsWith kv.key r.lead)).mergeSort
    keyLe).filter (fun kv => r.isPending kv.key)

def Client.scan (r : ScanRequest) :
    StateM σ (Except StoreError ScanResult) := do
  let page := fun entries =>
    ScanResult.ofListing r.pageSize (pendingEntries r entries)
  match ← c.exchange send (.ofListing r.lead) with
  | .error e => return .error e
  | .ok ⟨_, .success response⟩ => return .ok (page response.node.leaves)
  | .ok ⟨_, .failure e⟩ =>
      if e.code == ErrorBody.keyNotFound then return .ok (page [])
      else return .error e.toStoreError

end FairLease.Etcd
