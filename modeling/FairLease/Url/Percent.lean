import FairLease.Text.Digits

/-!
# Percent encoding

Bytes that a part of a URL cannot hold are written as a percent sign and two
hexadecimal digits. Text outside ASCII is encoded byte by byte of its UTF-8
form. Form data also writes spaces as plus signs.
-/

namespace FairLease.Url

def upperHex (n : Nat) : Char :=
  if n < 10 then Char.ofNat ('0'.toNat + n)
  else Char.ofNat ('A'.toNat + (n - 10))

def percentByte (b : UInt8) : List Char :=
  ['%', upperHex (b.toNat / 16), upperHex (b.toNat % 16)]

def percentChar (c : Char) : List Char :=
  (String.utf8EncodeChar c).flatMap percentByte

def percentEncode (isEncoded : Char -> Bool) (cs : List Char) : List Char :=
  cs.flatMap (fun c => if isEncoded c then percentChar c else [c])

/-!
## What is encoded where
-/

def isControlOrNonAscii (c : Char) : Bool :=
  decide (c.toNat < 0x20) || decide (0x7F ≤ c.toNat)

/-- Characters that a path cannot hold. A percent sign is kept, so that a path
may already be encoded. -/
def inPathSet (c : Char) : Bool :=
  isControlOrNonAscii c || c == ' ' || c == '"' || c == '<' || c == '>' ||
    c == Char.ofNat 0x60
    || c == '#' || c == '?' || c == '{' || c == '}'

def inQuerySet (c : Char) : Bool :=
  isControlOrNonAscii c || c == ' ' || c == '"' || c == '#' ||
    c == '<' || c == '>'
    || c == Char.ofNat 0x27

def isFormSafe (c : Char) : Bool :=
  c.isAlphanum || c == '*' || c == '-' || c == '.' || c == '_'

def formChar (c : Char) : List Char :=
  if c = ' ' then ['+'] else if isFormSafe c then [c] else percentChar c

def formText (s : String) : List Char :=
  s.toList.flatMap formChar

def formPairs : List (String × String) -> List Char
  | [] => []
  | [p] => formText p.1 ++ '=' :: formText p.2
  | p :: rest => formText p.1 ++ '=' :: formText p.2 ++ '&' :: formPairs rest

/-!
## Decoding
-/

/-- A percent sign without two digits stands for itself. -/
def percentDecode : List Char -> List UInt8
  | '%' :: a :: b :: rest =>
      match Text.hexDigit? a, Text.hexDigit? b with
      | some x, some y => UInt8.ofNat (16 * x + y) :: percentDecode rest
      | _, _ => String.utf8EncodeChar '%' ++ percentDecode (a :: b :: rest)
  | c :: rest => String.utf8EncodeChar c ++ percentDecode rest
  | [] => []

end FairLease.Url
