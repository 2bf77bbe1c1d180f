import Std.Data.ExtTreeMap
import FairLease.Store.Event
import FairLease.Store.Request
import FairLease.Text.Affix

/-!
# The in-memory store

Entries live in a table sorted by key and may have a deadline. A lapsed entry
is removed by the first operation that meets it, which publishes an `expire`
event of its own revision before anything else happens. Every command that is
submitted is logged, whether it is accepted or not.
-/

namespace FairLease

/-- Values by key, in the order of code points. -/
abbrev Table (α : Type) : Type :=
  Std.ExtTreeMap String α compare

/-- A stored value. Deadlines are points on a clock that counts nanoseconds. -/
structure Entry where
  value : String
  createRevision : Nat
  modRevision : Nat
  deadline : Option Nat
  deriving DecidableEq, Repr

namespace Entry

/-- An entry lapses at its deadline, not after it. -/
def hasLapsed (e : Entry) (now : Nat) : Bool :=
  match e.deadline with
  | none => false
  | some deadline => decide (deadline ≤ now)

/-- The remaining lifetime is rounded down to milliseconds. -/
def toKeyValue (e : Entry) (key : String) (now : Nat) : KeyValue :=
  { key, value := e.value, createRevision := e.createRevision, modRevision := e.modRevision
    ttlRemainingMs :=
      e.deadline.map (fun deadline => (deadline - now) / 1000000) }

end Entry

def maxLogSize : Nat :=
  4096

structure MemoryStore where
  entries : Table Entry
  revision : Nat
  /-- The latest commands, oldest first. -/
  log : Array Command
  events : Array Event

namespace MemoryStore

def empty : MemoryStore :=
  { entries := ∅, revision := 0, log := #[], events := #[] }

/-!
## Steps

Each change of the table takes the next revision and publishes one event.
-/

def get? (s : MemoryStore) (key : String) : Option Entry :=
  s.entries[key]?

def record (s : MemoryStore) (command : Command) : MemoryStore :=
  let kept :=
    if s.log.size = maxLogSize then s.log.extract 1 s.log.size else s.log
  { s with log := kept.push command }

/-- Tell every watcher of an event without touching the data. -/
def publish (s : MemoryStore) (event : Event) : MemoryStore :=
  { s with events := s.events.push event }

/-- An overwritten key keeps the revision it was created at. -/
def insert (s : MemoryStore) (action : Action) (key value : String)
    (deadline : Option Nat) :
    MemoryStore :=
  let revision := s.revision + 1
  let entry : Entry :=
    { value, createRevision := ((s.get? key).map (·.createRevision)).getD revision
      modRevision := revision, deadline }
  { s with
    entries := s.entries.insert key entry
    revision
    events := s.events.push ⟨action, key, some value, revision⟩ }

def remove (s : MemoryStore) (action : Action) (key : String) : MemoryStore :=
  let revision := s.revision + 1
  { s with
    entries := s.entries.erase key
    revision
    events := s.events.push ⟨action, key, none, revision⟩ }

def purge (s : MemoryStore) (now : Nat) (key : String) : MemoryStore :=
  match s.get? key with
  | some e => if e.hasLapsed now then s.remove .expire key else s
  | none => s

def lapsedKeys (s : MemoryStore) (now : Nat) (select : String -> Bool) :
    List String :=
  (s.entries.toList.filter (fun p => select p.1 && p.2.hasLapsed now)).map (·.1)

def purgeAll (s : MemoryStore) (now : Nat) (select : String -> Bool) :
    MemoryStore :=
  (s.lapsedKeys now select).foldl (fun s key => s.purge now key) s

/-!
## Operations

Every operation is given the time at which it happens.
-/

def deadlineAfter (now ttlMs : Nat) : Option Nat :=
  some (now + ttlMs * 1000000)

/-- Carry out a valid command on a store in which its key has not lapsed. -/
def apply (s : MemoryStore) (now : Nat) (command : Command) :
    Except StoreError MemoryStore :=
  let current := (s.get? command.key).map (·.value)
  match command with
  | .set key value => .ok (s.insert .set key value none)
  | .setWithTtl key value ttlMs =>
      .ok (s.insert .set key value (deadlineAfter now ttlMs))
  | .createWithTtl key value ttlMs =>
      if current.isSome then .error (.keyExists key)
      else .ok (s.insert .create key value (deadlineAfter now ttlMs))
  | .compareAndSwap key expected newValue =>
      if current = expected then
        .ok (s.insert (if expected.isNone then .create else .compareAndSwap)
          key newValue none)
      else .error (.compareFailed key expected current)
  | .compareAndSwapWithTtl key expected newValue ttlMs =>
      if current = some expected then
        .ok (s.insert .compareAndSwap key newValue (deadlineAfter now ttlMs))
      else .error (.compareFailed key (some expected) current)
  | .delete key =>
      if current.isSome then .ok (s.remove .delete key)
      else .error (.notFound key)

def write (s : MemoryStore) (now : Nat) (command : Command) :
    Except StoreError WriteResult × MemoryStore :=
  let s := s.record command
  match command.validate with
  | .error e => (.error e, s)
  | .ok () =>
      let s := s.purge now command.key
      let prevValue := (s.get? command.key).map (·.value)
      match s.apply now command with
      | .error e => (.error e, s)
      | .ok t => (.ok { command := some command, revision := some t.revision, prevValue }, t)

def read (s : MemoryStore) (now : Nat) (key : String) :
    ReadResult × MemoryStore :=
  let s := s.purge now key
  (⟨(s.get? key).map (fun e => e.toKeyValue key now)⟩, s)

def delete (s : MemoryStore) (now : Nat) (key : String) :
    Except StoreError DeleteResult × MemoryStore :=
  let s := s.record (.delete key)
  match (Command.delete key).validate with
  | .error e => (.error e, s)
  | .ok () =>
      let s := s.purge now key
      if (s.get? key).isSome then (.ok ⟨key, true⟩, s.remove .delete key)
      else (.ok ⟨key, false⟩, s)

/-- The entries a listing still has to report, in order of their keys. -/
def listing (s : MemoryStore) (now : Nat) (r : ScanRequest) : List KeyValue :=
  (s.entries.toList.filter (fun p => Text.startsWith p.1 r.lead &&
    r.isPending p.1)).map (fun p => p.2.toKeyValue p.1 now)

def scan (s : MemoryStore) (now : Nat) (r : ScanRequest) :
    ScanResult × MemoryStore :=
  let s := s.purgeAll now (fun key => Text.startsWith key r.lead)
  (.ofListing r.pageSize (s.listing now r), s)

def expireDue (s : MemoryStore) (now : Nat) : Nat × MemoryStore :=
  ((s.lapsedKeys now (fun _ => true)).length, s.purgeAll now (fun _ => true))

end MemoryStore
end FairLease
