import FairLease.Width

/-!
# JSON values

The values a JSON text stands for, with the members of an object kept in the
order of the text and repeated names kept apart. Numbers keep only what a typed
reader can ask for: whether they are an integer that fits 64 bits.
-/

namespace FairLease

/-- A number literal, classified by the integer types that can hold it. -/
inductive Json.Number where
  /-- A non-negative integer below `2 ^ 64`. -/
  | natural (n : Nat)
  /-- The integer `-n`, where `0 < n` and `n <= 2 ^ 63`. -/
  | negative (n : Nat)
  /-- Any other literal in the range of double precision. -/
  | real (literal : String)
  deriving DecidableEq, Repr, Inhabited

/-- A JSON value. `unreadable` is a literal that follows the grammar but has no
value: a string with half a surrogate pair, an object with such a name, or a
number beyond double precision. It may be skipped, but not read. -/
inductive Json where
  | null
  | bool (b : Bool)
  | number (n : Json.Number)
  | string (s : String)
  | array (items : List Json)
  | object (members : List (String × Json))
  | unreadable
  deriving Inhabited

namespace Json

def ofNat (n : Nat) : Json :=
  .number (.natural n)

def ofOption {α : Type} (f : α -> Json) : Option α -> Json
  | none => .null
  | some a => f a

/-!
## Sound values

A reader that keeps every part of a value refuses unreadable parts, and refuses
values nested deeper than a fixed number of levels.
-/

mutual

/-- Every part has a value, and arrays and objects nest at most `depth` deep. -/
def isSound : Nat -> Json -> Bool
  | _, null => true
  | _, bool _ => true
  | _, number _ => true
  | _, string _ => true
  | depth, array items => decide (0 < depth) && allSound (depth - 1) items
  | depth, object members =>
      decide (0 < depth) && membersSound (depth - 1) members
  | _, unreadable => false

def allSound : Nat -> List Json -> Bool
  | _, [] => true
  | depth, item :: rest => isSound depth item && allSound depth rest

def membersSound : Nat -> List (String × Json) -> Bool
  | _, [] => true
  | depth, member :: rest => isSound depth member.2 && membersSound depth rest

end

def maxDepth : Nat :=
  127

/-!
## Access by name

These serve readers of trusted objects, in which every name occurs once.
-/

def get? (j : Json) (name : String) : Option Json :=
  match j with
  | object members => members.lookup name
  | _ => none

def string? : Json -> Option String
  | string s => some s
  | _ => none

def bool? : Json -> Option Bool
  | bool b => some b
  | _ => none

def unsigned? (bits : Nat) : Json -> Option Nat
  | number (.natural n) => if n < wordSize bits then some n else none
  | _ => none

def signed? : Json -> Option Int
  | number (.natural n) => if n < wordSize 63 then some (Int.ofNat n) else none
  | number (.negative n) => some (-(Int.ofNat n))
  | _ => none

end Json
end FairLease
