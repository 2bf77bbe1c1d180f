import FairLease.Text.Split
import FairLease.Url.Percent

/-!
# Internet addresses in URLs

A host that ends in a number is an IPv4 address, whose parts may be decimal,
octal or hexadecimal and of which the last one fills all that is missing. A
host in brackets is an IPv6 address.
-/

namespace FairLease.Url

/-!
## IPv4
-/

def ipv4Part : List Char -> Option Nat
  | [] => none
  | '0' :: 'x' :: digits => Text.numberIn 16 digits
  | '0' :: 'X' :: digits => Text.numberIn 16 digits
  | '0' :: c :: digits => Text.numberIn 8 (c :: digits)
  | digits => Text.numberIn 10 digits

/-- The parts, without an empty one after the last dot. -/
def ipv4Parts (host : List Char) : List (List Char) :=
  let parts := Text.splitAt '.' host
  if parts.getLast? = some [] then parts.dropLast else parts

/-- The last part, looked at through one final dot, is a number. -/
def endsInNumber (host : List Char) : Bool :=
  match (ipv4Parts host).getLast? with
  | none => false
  | some last =>
      (!last.isEmpty && last.all Char.isDigit) || (ipv4Part last).isSome

/-- The value of the bytes of an address, from the given power of 256
downwards. -/
def ipv4Bytes : Nat -> List Nat -> Nat
  | _, [] => 0
  | power, n :: rest => n * Nat.pow 256 power + ipv4Bytes (power - 1) rest

/-- The value of an address from its parts: all but the last are bytes. -/
def ipv4Value (numbers : List Nat) : Option Nat :=
  match numbers.reverse with
  | [] => none
  | last :: leading =>
      if leading.any (fun n => decide (255 < n)) then none
      else if Nat.pow 256 (4 - leading.length) ≤ last then none
      else some (ipv4Bytes 3 leading.reverse + last)

def ipv4? (host : List Char) : Option Nat := do
  let parts := ipv4Parts host
  if 4 < parts.length then none
  ipv4Value (← parts.mapM ipv4Part)

/-!
## IPv6

The groups of an address are read from the left. A doubled colon stands for as
many zero groups as are missing, and the last two groups may be written as an
IPv4 address.
-/

def dottedByte (digits : List Char) : Option Nat :=
  if digits.isEmpty || !digits.all Char.isDigit then none
  else if 1 < digits.length && digits.head? == some '0' then none
  else (Text.numberIn 10 digits).filter (fun n => decide (n ≤ 255))

def dottedGroups (cs : List Char) : Option (List Nat) := do
  match ← (Text.splitAt '.' cs).mapM dottedByte with
  | [a, b, c, d] => return [a * 256 + b, c * 256 + d]
  | _ => none

def hexGroup (cs : List Char) : Option Nat :=
  if cs.isEmpty || decide (4 < cs.length) then none else Text.numberIn 16 cs

/-- Groups between colons, of which the last may be dotted. -/
def groups : List (List Char) -> Option (List Nat)
  | [] => some []
  | [last] =>
      if last.contains '.' then dottedGroups last else (hexGroup last).map ([·])
  | part :: rest => do return (← hexGroup part) :: (← groups rest)

def groupsOf (cs : List Char) : Option (List Nat) :=
  if cs.isEmpty then some [] else groups (Text.splitAt ':' cs)

def splitDoubled : List Char -> Option (List Char × List Char)
  | ':' :: ':' :: rest => some ([], rest)
  | c :: rest => (splitDoubled rest).map (fun p => (c :: p.1, p.2))
  | [] => none

def ipv6? (cs : List Char) : Option (List Nat) :=
  match splitDoubled cs with
  | none => (groupsOf cs).filter (fun gs => gs.length == 8)
  | some (before, after) => do
      let left ← groupsOf before
      if before.contains '.' then none
      let right ← groupsOf after
      let missing := 8 - (left.length + right.length)
      if missing = 0 then none
      return left ++ List.replicate missing 0 ++ right

end FairLease.Url
