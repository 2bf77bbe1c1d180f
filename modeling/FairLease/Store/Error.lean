import FairLease.Text.Quoted

/-!
# Store errors

What can go wrong when a key-value store is asked for something. Three of the
causes pass by themselves, so that asking again may succeed.
-/

namespace FairLease

inductive BodyDefect where
  | malformed
  /-- The body is a JSON text of another shape. -/
  | unexpected
  deriving DecidableEq, Repr

inductive StoreError where
  | notFound (key : String)
  | keyExists (key : String)
  | compareFailed (key : String) (expected actual : Option String)
  | emptyKey
  | keyTooLarge (size max : Nat)
  | valueTooLarge (size max : Nat)
  | invalidTtl (key : String)
  | timeout (durationMs : Nat)
  | unavailable (reason : String)
  | watchClosed
  | failed (reason : String)
  /-- A failure whose reason is a reply that could not be decoded. -/
  | undecodable (status : Nat) (defect : BodyDefect)
  deriving DecidableEq, Repr

namespace StoreError

/-- The name of the cause. A reply that cannot be decoded is a failed
operation. -/
def kind : StoreError -> String
  | notFound _ => "NotFound"
  | keyExists _ => "KeyExists"
  | compareFailed _ _ _ => "CompareAndSwapFailed"
  | emptyKey => "EmptyKey"
  | keyTooLarge _ _ => "KeyTooLarge"
  | valueTooLarge _ _ => "ValueTooLarge"
  | invalidTtl _ => "InvalidTtl"
  | timeout _ => "Timeout"
  | unavailable _ => "Unavailable"
  | watchClosed => "WatchClosed"
  | failed _ => "Failed"
  | undecodable _ _ => "Failed"

def message : StoreError -> String
  | notFound key => "key '" ++ key ++ "' not found"
  | keyExists key => "key '" ++ key ++ "' already exists"
  | compareFailed key expected actual =>
      "compare-and-swap failed for key '" ++ key ++ "': expected " ++
        Text.quotedOption expected
        ++ ", actual " ++ Text.quotedOption actual
  | emptyKey => "key must not be empty"
  | keyTooLarge size max =>
      "key size " ++ toString size ++ " exceeds maximum of " ++
        toString max ++ " bytes"
  | valueTooLarge size max =>
      "value size " ++ toString size ++ " exceeds maximum of " ++
        toString max ++ " bytes"
  | invalidTtl key => "ttl for key '" ++ key ++ "' must be non-zero"
  | timeout durationMs =>
      "operation timed out after " ++ toString durationMs ++ "ms"
  | unavailable reason => "store unavailable: " ++ reason
  | watchClosed => "watch stream closed"
  | failed reason => "operation failed: " ++ reason
  | undecodable status _ =>
      "operation failed: undecodable etcd response (status " ++
        toString status ++ ")"

/-- Asking again may succeed without anything else being done. -/
def isTransient : StoreError -> Bool
  | timeout _ => true
  | unavailable _ => true
  | watchClosed => true
  | _ => false

end StoreError
end FairLease
