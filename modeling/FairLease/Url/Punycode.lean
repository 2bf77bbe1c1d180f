import FairLease.Width

/-!
# Punycode

A label of a domain name outside ASCII is written as its ASCII characters, a
hyphen, and a sequence of variable length numbers that say which other
characters go where.
-/

namespace FairLease.Url.Punycode

def digitValue (c : Char) : Option Nat :=
  if 'a' ≤ c ∧ c ≤ 'z' then some (c.toNat - 'a'.toNat)
  else if c.isDigit then some (c.toNat - '0'.toNat + 26)
  else none

/-- The least digit that does not end a number, by its position. -/
def threshold (k bias : Nat) : Nat :=
  if k ≤ bias then 1 else if bias + 26 ≤ k then 26 else k - bias

def shrink (delta k : Nat) : Nat × Nat :=
  if 455 < delta then shrink (delta / 35) (k + 36) else (delta, k)
termination_by delta
decreasing_by exact Nat.div_lt_self (by omega) (by omega)

/-- Numbers tend to be close to each other, so their digits are weighed by the
last one. -/
def adapt (delta points : Nat) (isFirst : Bool) : Nat :=
  let damped := if isFirst then delta / 700 else delta / 2
  let (delta, k) := shrink (damped + damped / points) 0
  k + 36 * delta / (delta + 38)

structure State where
  text : List Char
  code : Nat
  position : Nat
  bias : Nat

def insertAt (text : List Char) (i : Nat) (c : Char) : List Char :=
  text.take i ++ c :: text.drop i

def State.place (s : State) (distance : Nat) : Option State :=
  let length := s.text.length + 1
  let code := s.code + (s.position + distance) / length
  let position := (s.position + distance) % length
  if h : code.isValidChar then
    some { text := insertAt s.text position (Char.ofNatAux code h), code, position := position + 1
           bias := adapt distance length (s.position == 0) }
  else none

/-- Read numbers to the end: the value so far, the weight of the next digit and
its position. Neither the weight nor the place that is reached may outgrow 32
bits. -/
def decodeFrom (value weight k : Nat) (s : State) : List Char -> Option State
  | [] => if k = 36 then some s else none
  | c :: rest => do
      let digit ← digitValue c
      let value := value + digit * weight
      if wordSize 32 ≤ s.position + value then none
      let t := threshold k s.bias
      if digit < t then
        match s.place value with
        | none => none
        | some s => decodeFrom 0 1 36 s rest
      else
        let weight := weight * (36 - t)
        if wordSize 32 ≤ weight then none
        decodeFrom value weight (k + 36) s rest

/-- The ASCII characters before the last hyphen, and what follows it. A hyphen
that has nothing before it does not count. -/
def splitLast (cs : List Char) : List Char × List Char :=
  let tail := (cs.reverse.takeWhile (· != '-')).reverse
  let lead := cs.take (cs.length - tail.length - 1)
  if lead.isEmpty then ([], cs) else (lead, tail)

def decode (cs : List Char) : Option (List Char) :=
  let (basic, digits) := splitLast cs
  (decodeFrom 0 1 36 ⟨basic, 0x80, 0, 72⟩ digits).map (·.text)

end FairLease.Url.Punycode
