import FairLease.Store.Error

/-!
# Write commands

The changes a client may ask a store for, the limits on keys and values, and
the check that every store makes before it looks at its data.
-/

namespace FairLease

inductive Command where
  | set (key value : String)
  | setWithTtl (key value : String) (ttlMs : Nat)
  | createWithTtl (key value : String) (ttlMs : Nat)
  | compareAndSwap (key : String) (expected : Option String) (newValue : String)
  | compareAndSwapWithTtl (key expected newValue : String) (ttlMs : Nat)
  | delete (key : String)
  deriving DecidableEq, Repr

/-!
## Limits

Sizes are counted in bytes of the UTF-8 encoding.
-/

def maxKeySize : Nat :=
  1024

def maxValueSize : Nat :=
  1048576

namespace Command

def key : Command -> String
  | set key _ => key
  | setWithTtl key _ _ => key
  | createWithTtl key _ _ => key
  | compareAndSwap key _ _ => key
  | compareAndSwapWithTtl key _ _ _ => key
  | delete key => key

/-- The lifetime the command gives the key, in milliseconds. -/
def ttlMs? : Command -> Option Nat
  | setWithTtl _ _ ttlMs => some ttlMs
  | createWithTtl _ _ ttlMs => some ttlMs
  | compareAndSwapWithTtl _ _ _ ttlMs => some ttlMs
  | _ => none

def checkKey (key : String) : Except StoreError Unit :=
  if key.isEmpty then .error .emptyKey
  else if maxKeySize < key.utf8ByteSize then
    .error (.keyTooLarge key.utf8ByteSize maxKeySize)
  else .ok ()

def checkValue (value : String) : Except StoreError Unit :=
  if maxValueSize < value.utf8ByteSize then
    .error (.valueTooLarge value.utf8ByteSize maxValueSize)
  else .ok ()

def checkTtl (key : String) (ttlMs : Nat) : Except StoreError Unit :=
  if ttlMs = 0 then .error (.invalidTtl key) else .ok ()

/-- The key is checked first, then the values in order, then the lifetime. -/
def validate : Command -> Except StoreError Unit
  | set key value => do
      checkKey key
      checkValue value
  | setWithTtl key value ttlMs => do
      checkKey key
      checkValue value
      checkTtl key ttlMs
  | createWithTtl key value ttlMs => do
      checkKey key
      checkValue value
      checkTtl key ttlMs
  | compareAndSwap key expected newValue => do
      checkKey key
      match expected with
      | none => .ok ()
      | some value => checkValue value
      checkValue newValue
  | compareAndSwapWithTtl key expected newValue ttlMs => do
      checkKey key
      checkValue expected
      checkValue newValue
      checkTtl key ttlMs
  | delete key => checkKey key

end Command
end FairLease
