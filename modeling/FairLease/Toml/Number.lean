import FairLease.Text.Digits
import FairLease.Toml.Basic

/-!
# TOML numbers, dates and times

Numbers may have a sign and underscores between their digits. Integers have 64
bits and may be written in base sixteen, eight and two. A number with a fraction
or an exponent must not be too large for double precision. Dates must exist.
-/

namespace FairLease.Toml

/-!
## Digits
-/

/-- The digits of a number. An underscore must be followed by a digit. -/
def readDigits (isDigit : Char -> Bool) : List Char -> List Char × List Char
  | '_' :: c :: rest =>
      if isDigit c then
        let (digits, rest) := readDigits isDigit rest
        (c :: digits, rest)
      else ([], '_' :: c :: rest)
  | c :: rest =>
      if isDigit c then
        let (digits, rest) := readDigits isDigit rest
        (c :: digits, rest)
      else ([], c :: rest)
  | [] => ([], [])

/-- Digits of which the first is no underscore. -/
def readNumeral (isDigit : Char -> Bool) :
    List Char -> Option (List Char × List Char)
  | c :: rest =>
      if isDigit c then some (readDigits isDigit (c :: rest)) else none
  | [] => none

/-- A number of which the first digit is zero has no further digits. -/
def readWhole : List Char -> Option (List Char × List Char)
  | '0' :: rest => some (['0'], rest)
  | cs => readNumeral Char.isDigit cs

def valueIn (base : Nat) (digits : List Char) : Nat :=
  digits.foldl (fun n c => base * n + (Text.hexDigit? c).getD 0) 0

/-!
## Integers
-/

def integerOf (isNegative : Bool) (n : Nat) : Option Value :=
  if isNegative then
    if n ≤ wordSize 63 then some (.integer (-(Int.ofNat n))) else none
  else if n < wordSize 63 then some (.integer (Int.ofNat n)) else none

def readBased (base : Nat) (cs : List Char) : Option (Value × List Char) := do
  let isDigit := fun c => (Text.hexDigit? c).any (fun d => decide (d < base))
  let (digits, rest) ← readNumeral isDigit cs
  return (← integerOf false (valueIn base digits), rest)

/-!
## Fractions
-/

def readSign : List Char -> Bool × List Char
  | '-' :: rest => (true, rest)
  | '+' :: rest => (false, rest)
  | cs => (false, cs)

def readFraction : List Char -> Option (List Char × List Char)
  | '.' :: rest => readNumeral Char.isDigit rest
  | _ => none

def readExponent : List Char -> Option (Int × List Char)
  | c :: rest =>
      if c = 'e' ∨ c = 'E' then do
        let (isNegative, rest) := readSign rest
        let (digits, rest) ← readNumeral Char.isDigit rest
        let n := Int.ofNat (valueIn 10 digits)
        return (if isNegative then -n else n, rest)
      else none
  | [] => none

/-- The number of digits scaled by a power of ten does not fit double
precision. -/
def isTooLarge (digits : Nat) (exponent : Int) : Bool :=
  let divisor := (-exponent).toNat
  if digits = 0 ∨ digits.log2 < divisor then false
  else if 400 < exponent then true
  else decide (doubleLimit * Nat.pow 10 divisor ≤
    digits * Nat.pow 10 exponent.toNat)

/-- A number with a fraction, an exponent or both. -/
def readFractional (cs : List Char) : Option (Value × List Char) := do
  let (isNegative, rest) := readSign cs
  let (whole, rest) ← readWhole rest
  let (fraction, afterFraction) := (readFraction rest).getD ([], rest)
  let (exponent, afterExponent) :=
    (readExponent afterFraction).getD (0, afterFraction)
  if afterExponent.length = rest.length then none
  let digits := valueIn 10 (whole ++ fraction)
  if !isNegative && isTooLarge digits (exponent - fraction.length) then none
  return (.fractional, afterExponent)

/-- Infinity, or a result that is no number. -/
def readSpecial (cs : List Char) : Option (Value × List Char) :=
  match (readSign cs).2 with
  | 'i' :: 'n' :: 'f' :: rest => some (.fractional, rest)
  | 'n' :: 'a' :: 'n' :: rest => some (.fractional, rest)
  | _ => none

def readInteger (cs : List Char) : Option (Value × List Char) :=
  match cs with
  | '0' :: 'x' :: rest => readBased 16 rest
  | '0' :: 'o' :: rest => readBased 8 rest
  | '0' :: 'b' :: rest => readBased 2 rest
  | _ => do
      let (isNegative, rest) := readSign cs
      let (digits, rest) ← readWhole rest
      return (← integerOf isNegative (valueIn 10 digits), rest)

/-!
## Dates and times
-/

def readFixed (width : Nat) (cs : List Char) : Option (Nat × List Char) :=
  let digits := cs.take width
  if digits.length = width ∧ digits.all Char.isDigit then
    some (valueIn 10 digits, cs.drop width)
  else none

def readChar (p : Char -> Bool) : List Char -> Option (List Char)
  | c :: rest => if p c then some rest else none
  | [] => none

def isLeapYear (year : Nat) : Bool :=
  year % 4 == 0 && (year % 100 != 0 || year % 400 == 0)

def daysIn (year month : Nat) : Nat :=
  if month = 2 then (if isLeapYear year then 29 else 28)
  else if [4, 6, 9, 11].contains month then 30
  else 31

def readDate (cs : List Char) : Option (List Char) := do
  let (year, rest) ← readFixed 4 cs
  let (month, rest) ← readFixed 2 (← readChar (· == '-') rest)
  let (day, rest) ← readFixed 2 (← readChar (· == '-') rest)
  if 1 ≤ month ∧ month ≤ 12 ∧ 1 ≤ day ∧ day ≤ daysIn year month then some rest
  else none

def readClock (cs : List Char) : Option (List Char) := do
  let (hour, rest) ← readFixed 2 cs
  let (minute, rest) ← readFixed 2 (← readChar (· == ':') rest)
  if hour ≤ 23 ∧ minute ≤ 59 then some rest else none

/-- Seconds may have any number of further digits. -/
def readTime (cs : List Char) : Option (List Char) := do
  let (second, rest) ← readFixed 2 (← readChar (· == ':') (← readClock cs))
  if 60 < second then none
  match rest with
  | '.' :: c :: more =>
      if c.isDigit then some (more.dropWhile Char.isDigit) else some rest
  | _ => some rest

def readOffset (cs : List Char) : Option (List Char) :=
  match cs with
  | c :: rest =>
      if c = 'Z' ∨ c = 'z' then some rest
      else if c = '+' ∨ c = '-' then readClock rest
      else none
  | [] => none

def isTimeMark (c : Char) : Bool :=
  c == 'T' || c == 't' || c == ' '

def readMoment (cs : List Char) : Option (Value × List Char) :=
  match readDate cs with
  | none => (readTime cs).map (.moment, ·)
  | some afterDate =>
      match (readChar isTimeMark afterDate).bind readTime with
      | none => some (.moment, afterDate)
      | some afterTime => some (.moment, (readOffset afterTime).getD afterTime)

def readNumber (cs : List Char) : Option (Value × List Char) :=
  (((readMoment cs).orElse fun _ => readFractional cs).orElse fun _ =>
    readSpecial cs).orElse fun _ => readInteger cs

end FairLease.Toml
