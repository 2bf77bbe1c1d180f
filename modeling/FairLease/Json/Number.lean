import FairLease.Json.Basic

/-!
# JSON number literals

A number literal is an optional sign, an integer part without leading zeros,
and an optional fraction and exponent. An integer that fits 64 bits keeps its
value; every other literal is only checked against the range of double
precision.
-/

namespace FairLease.Json

structure Literal where
  isNegative : Bool
  whole : List Char
  fraction : List Char
  exponent : Option (Bool × List Char)
  deriving DecidableEq, Repr

namespace Literal

def digitValue (c : Char) : Nat :=
  c.toNat - '0'.toNat

def naturalOf (digits : List Char) : Nat :=
  digits.foldl (fun n c => 10 * n + digitValue c) 0

/-!
## Range of double precision

A literal is approximated by the digits that fit an unsigned 64 bit integer and
a power of ten. It is out of range when the product of the two, each rounded to
53 significant bits, exceeds the largest double by half a unit or more.
-/

/-- The digits kept so far, the power of ten they are to be scaled by, and
whether a digit was left out. -/
structure Significand where
  digits : Nat
  scale : Int
  isFull : Bool

def Significand.fits (s : Significand) (c : Char) : Bool :=
  !s.isFull && decide (10 * s.digits + digitValue c < wordSize 64)

/-- Once a digit of the integer part does not fit, that digit and all that
follow it count as zeros. -/
def Significand.pushWhole (s : Significand) (c : Char) : Significand :=
  if s.fits c then { s with digits := 10 * s.digits + digitValue c }
  else { s with scale := s.scale + 1, isFull := true }

/-- The first digit of the fraction that does not fit ends the fraction. -/
def Significand.takeFraction (s : Significand) : List Char -> Significand
  | [] => s
  | c :: rest =>
      if 10 * s.digits + digitValue c < wordSize 64 then
        Significand.takeFraction
          { s with digits := 10 * s.digits + digitValue c, scale := s.scale - 1 } rest
      else s

def significand (l : Literal) : Significand :=
  (l.whole.foldl Significand.pushWhole ⟨0, 0, false⟩).takeFraction l.fraction

/-- The nearest number with 53 significant bits, ties to even. -/
def roundTo53 (n : Nat) : Nat :=
  let excess := n.log2 + 1 - 53
  let unit := Nat.pow 2 excess
  let quotient := n / unit
  let doubled := 2 * (n % unit)
  if unit < doubled || (unit == doubled && quotient % 2 == 1) then
    (quotient + 1) * unit
  else quotient * unit

def scale (l : Literal) : Int :=
  match l.exponent with
  | none => l.significand.scale
  | some (isNegative, digits) =>
      let e := Int.ofNat (naturalOf digits)
      l.significand.scale + (if isNegative then -e else e)

/-- The literal is nearer to infinity than to the largest double. -/
def isOutOfRange (l : Literal) : Bool :=
  let digits := l.significand.digits
  let scale := l.scale
  if digits == 0 || decide (scale < 0) then false
  else if decide (308 < scale) then true
  else decide (doubleLimit ≤ roundTo53 digits * roundTo53
    (Nat.pow 10 scale.toNat))

/-!
## Value of a literal
-/

def chars (l : Literal) : List Char :=
  (if l.isNegative then ['-'] else []) ++ l.whole
    ++ (if l.fraction.isEmpty then [] else '.' :: l.fraction)
    ++ (match l.exponent with
        | none => []
        | some (isNegative, digits) =>
            'e' :: (if isNegative then '-' else '+') :: digits)

def real (l : Literal) : Json :=
  if l.isOutOfRange then .unreadable
  else .number (.real (String.ofList l.chars))

/-- Integers that fit keep their value; minus zero is not an integer. -/
def toJson (l : Literal) : Json :=
  match l.fraction, l.exponent with
  | [], none =>
      let n := naturalOf l.whole
      if l.isNegative then
        if 0 < n ∧ n ≤ wordSize 63 then .number (.negative n) else l.real
      else if n < wordSize 64 then .number (.natural n) else l.real
  | _, _ => l.real

end Literal

/-!
## Reading a literal

The reader takes the longest literal at the front. A zero that goes on with a
digit, and a fraction or exponent without digits, make a literal that is none.
-/

def takeDigits (cs : List Char) : List Char × List Char :=
  (cs.takeWhile Char.isDigit, cs.dropWhile Char.isDigit)

/-- At least one digit. -/
def readDigits (cs : List Char) : Option (List Char × List Char) :=
  if (takeDigits cs).1.isEmpty then none else some (takeDigits cs)

def readWhole (cs : List Char) : Option (List Char × List Char) := do
  let (digits, rest) ← readDigits cs
  if digits.head? = some '0' ∧ 1 < digits.length then none
  return (digits, rest)

def readFraction : List Char -> Option (List Char × List Char)
  | '.' :: rest => readDigits rest
  | cs => some ([], cs)

def readSigned : List Char -> Option ((Bool × List Char) × List Char)
  | '+' :: rest =>
      (readDigits rest).map fun (digits, rest) => ((false, digits), rest)
  | '-' :: rest =>
      (readDigits rest).map fun (digits, rest) => ((true, digits), rest)
  | cs => (readDigits cs).map fun (digits, rest) => ((false, digits), rest)

def readExponent : List Char -> Option (Option (Bool × List Char) × List Char)
  | c :: rest =>
      if c = 'e' ∨ c = 'E' then
        (readSigned rest).map fun (exponent, rest) => (some exponent, rest)
      else some (none, c :: rest)
  | [] => some (none, [])

def readUnsigned (isNegative : Bool) (cs : List Char) :
    Option (Literal × List Char) := do
  let (whole, rest) ← readWhole cs
  let (fraction, rest) ← readFraction rest
  let (exponent, rest) ← readExponent rest
  return (⟨isNegative, whole, fraction, exponent⟩, rest)

def readLiteral : List Char -> Option (Literal × List Char)
  | '-' :: rest => readUnsigned true rest
  | cs => readUnsigned false cs

end FairLease.Json
