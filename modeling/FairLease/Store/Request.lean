import FairLease.Store.Command

/-!
# Requests and results

The questions a client may put to a store and the shape of the answers.
Listings come in pages: a page that was cut off carries the key after which the
next one continues.
-/

namespace FairLease

structure KeyValue where
  key : String
  value : String
  createRevision : Nat
  modRevision : Nat
  ttlRemainingMs : Option Nat
  deriving DecidableEq, Repr

structure ReadRequest where
  key : String
  deriving DecidableEq, Repr

structure ReadResult where
  entry : Option KeyValue
  deriving DecidableEq, Repr

structure DeleteRequest where
  key : String
  deriving DecidableEq, Repr

structure DeleteResult where
  key : String
  isDeleted : Bool
  deriving DecidableEq, Repr

/-- A page of the keys that start with `lead`, in order, after the key
`after`. -/
structure ScanRequest where
  lead : String
  limit : Option Nat
  after : Option String
  deriving DecidableEq, Repr

structure ScanResult where
  entries : List KeyValue
  count : Nat
  isTruncated : Bool
  continuation : Option String
  deriving DecidableEq, Repr

structure WatchRequest where
  lead : String
  deriving DecidableEq, Repr

structure WriteRequest where
  command : Command
  deriving DecidableEq, Repr

structure WriteResult where
  command : Option Command
  revision : Option Nat
  prevValue : Option String
  deriving DecidableEq, Repr

/-!
## Pages
-/

def defaultScanLimit : Nat :=
  1000

def maxScanResults : Nat :=
  10000

/-- The number of entries of a full page: at least one, at most ten thousand. -/
def ScanRequest.pageSize (r : ScanRequest) : Nat :=
  max 1 (min (r.limit.getD defaultScanLimit) maxScanResults)

def ScanRequest.isPending (r : ScanRequest) (key : String) : Bool :=
  match r.after with
  | none => true
  | some token => decide (token < key)

def ScanResult.ofListing (pageSize : Nat) (listing : List KeyValue) :
    ScanResult :=
  let entries := listing.take pageSize
  let isTruncated := decide (pageSize < listing.length)
  { entries, count := entries.length, isTruncated
    continuation := if isTruncated then entries.getLast?.map (·.key) else none }

end FairLease
