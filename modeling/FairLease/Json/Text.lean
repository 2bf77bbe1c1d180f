import FairLease.Text.Digits

/-!
# JSON string literals

A string literal is a run of characters between quotes in which quotes,
backslashes and control characters are escaped. Characters above the basic
plane may be escaped as a pair of surrogates.
-/

namespace FairLease.Json

/-!
## Writing

Quote, backslash and control characters are escaped, everything else is
written as it is.
-/

def hexDigit (n : Nat) : Char :=
  if n < 10 then Char.ofNat ('0'.toNat + n)
  else Char.ofNat ('a'.toNat + (n - 10))

def escape (c : Char) : List Char :=
  if c = '"' then ['\\', '"']
  else if c = '\\' then ['\\', '\\']
  else if c = '\n' then ['\\', 'n']
  else if c = '\r' then ['\\', 'r']
  else if c = '\t' then ['\\', 't']
  else if c.toNat = 8 then ['\\', 'b']
  else if c.toNat = 12 then ['\\', 'f']
  else if c.toNat < 32 then
    ['\\', 'u', '0', '0', hexDigit (c.toNat / 16), hexDigit (c.toNat % 16)]
  else [c]

def quote (cs : List Char) : List Char :=
  '"' :: cs.flatMap escape ++ ['"']

/-!
## Reading

A literal is read as units: characters, and the halves of escaped surrogate
pairs. It has a value when the halves pair up.
-/

/-- A character, or an escaped code unit between `0xD800` and `0xDFFF`. -/
inductive Piece where
  | char (c : Char)
  | high (unit : Nat)
  | low (unit : Nat)
  deriving DecidableEq, Repr

def hexUnit (a b c d : Char) : Option Nat :=
  Text.numberIn 16 [a, b, c, d]

def Piece.ofUnit (unit : Nat) : Piece :=
  if 0xD800 ≤ unit ∧ unit ≤ 0xDBFF then .high unit
  else if 0xDC00 ≤ unit ∧ unit ≤ 0xDFFF then .low unit
  else .char (Char.ofNat unit)

def unescape : Char -> Option Char
  | '"' => some '"'
  | '\\' => some '\\'
  | '/' => some '/'
  | 'b' => some (Char.ofNat 8)
  | 'f' => some (Char.ofNat 12)
  | 'n' => some '\n'
  | 'r' => some '\r'
  | 't' => some '\t'
  | _ => none

/-- The units up to the closing quote, and what follows it. -/
def pieces : List Char -> Option (List Piece × List Char)
  | [] => none
  | '"' :: rest => some ([], rest)
  | '\\' :: 'u' :: a :: b :: c :: d :: rest => do
      let unit ← hexUnit a b c d
      let (tail, rest) ← pieces rest
      return (.ofUnit unit :: tail, rest)
  | '\\' :: e :: rest => do
      let c ← unescape e
      let (tail, rest) ← pieces rest
      return (.char c :: tail, rest)
  | c :: rest => do
      if c = '\\' ∨ c.toNat < 32 then none
      let (tail, rest) ← pieces rest
      return (.char c :: tail, rest)

/-- The characters the units stand for, if every half has its other half. -/
def join : List Piece -> Option (List Char)
  | [] => some []
  | .char c :: rest => (join rest).map (c :: ·)
  | .high h :: .low l :: rest =>
      (join rest).map (Char.ofNat
        (0x10000 + (h - 0xD800) * 0x400 + (l - 0xDC00)) :: ·)
  | _ => none

end FairLease.Json
