import FairLease.Width

/-!
# Numbers in text

Settings and headers give numbers as decimal digits with an optional plus sign.
A number outside the range of its field is not a number. Other texts give them
as digits of another base.
-/

namespace FairLease.Text

/-!
## Unsigned numbers
-/

def digitsValue (digits : List Char) : Nat :=
  digits.foldl (fun n c => 10 * n + (c.toNat - '0'.toNat)) 0

def unsignedChars? (bits : Nat) (digits : List Char) : Option Nat :=
  if digits.isEmpty || !digits.all Char.isDigit then none
  else if digitsValue digits < wordSize bits then some (digitsValue digits)
  else none

def unsigned? (bits : Nat) (s : String) : Option Nat :=
  match s.toList with
  | '+' :: digits => unsignedChars? bits digits
  | digits => unsignedChars? bits digits

/-!
## Other bases
-/

def hexDigit? (c : Char) : Option Nat :=
  if c.isDigit then some (c.toNat - '0'.toNat)
  else if 'a' ≤ c ∧ c ≤ 'f' then some (c.toNat - 'a'.toNat + 10)
  else if 'A' ≤ c ∧ c ≤ 'F' then some (c.toNat - 'A'.toNat + 10)
  else none

def numberIn (base : Nat) (digits : List Char) : Option Nat :=
  digits.foldlM (fun n c =>
    match hexDigit? c with
    | some d => if d < base then some (n * base + d) else none
    | none => none) 0

end FairLease.Text
