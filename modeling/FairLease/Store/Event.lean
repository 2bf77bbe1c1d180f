/-!
# Change events

A watcher is told of every change of a key under its namespace: what happened,
to which key, and the revision at which it did.
-/

namespace FairLease

inductive Action where
  | set
  | create
  | update
  | compareAndSwap
  | delete
  | compareAndDelete
  | expire
  deriving DecidableEq, Repr

namespace Action

def name : Action -> String
  | set => "set"
  | create => "create"
  | update => "update"
  | compareAndSwap => "compareAndSwap"
  | delete => "delete"
  | compareAndDelete => "compareAndDelete"
  | expire => "expire"

def all : List Action :=
  [set, create, update, compareAndSwap, delete, compareAndDelete, expire]

/-- Names that are not actions on keys belong to requests that change
nothing. -/
def ofName? (name : String) : Option Action :=
  all.find? (fun action => action.name == name)

def isRemoval : Action -> Bool
  | delete => true
  | compareAndDelete => true
  | expire => true
  | _ => false

end Action

structure Event where
  action : Action
  key : String
  value : Option String
  index : Nat
  deriving DecidableEq, Repr

end FairLease
