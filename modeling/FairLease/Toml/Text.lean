import FairLease.Text.Digits

/-!
# TOML text

Strings come in four forms: with or without escapes, on one line or on several.
A key is a word of letters, digits, hyphens and underscores, or a string on one
line.
-/

namespace FairLease.Toml

/-!
## Characters
-/

def isSpace (c : Char) : Bool :=
  c == ' ' || c == '\t'

def skipSpace (cs : List Char) : List Char :=
  cs.dropWhile isSpace

/-- A tab, or a character that is no control character. -/
def isPlain (c : Char) : Bool :=
  c == '\t' || (decide (0x20 ≤ c.toNat) && c.toNat != 0x7F)

def dropBreak? : List Char -> Option (List Char)
  | '\n' :: rest => some rest
  | '\r' :: '\n' :: rest => some rest
  | _ => none

/-- A line break right after the opening quotes does not belong to a string. -/
def dropFirstBreak (cs : List Char) : List Char :=
  (dropBreak? cs).getD cs

/-!
## Escapes
-/

def simpleEscape? : Char -> Option Char
  | 'b' => some (Char.ofNat 8)
  | 't' => some '\t'
  | 'n' => some '\n'
  | 'f' => some (Char.ofNat 12)
  | 'r' => some '\r'
  | '"' => some '"'
  | '\\' => some '\\'
  | _ => none

def numberedChar? (digits : List Char) : Option Char := do
  let n ← Text.numberIn 16 digits
  if n < 0xD800 ∨ (0xDFFF < n ∧ n < 0x110000) then some (Char.ofNat n) else none

def readEscape : List Char -> Option (Char × List Char)
  | 'u' :: a :: b :: c :: d :: rest =>
      (numberedChar? [a, b, c, d]).map (·, rest)
  | 'U' :: a :: b :: c :: d :: e :: f :: g :: h :: rest =>
      (numberedChar? [a, b, c, d, e, f, g, h]).map (·, rest)
  | c :: rest => (simpleEscape? c).map (·, rest)
  | [] => none

def skipFolded : Bool -> List Char -> Option (List Char)
  | _, '\r' :: '\n' :: rest => skipFolded true rest
  | hasBreak, c :: rest =>
      if c == '\n' then skipFolded true rest
      else if isSpace c then skipFolded hasBreak rest
      else if hasBreak then some (c :: rest) else none
  | hasBreak, [] => if hasBreak then some [] else none

/-!
## Strings on one line
-/

/-- Every step of a reader with fuel uses up a character, so that the length of
the text is fuel enough. -/
def readBasic : Nat -> List Char -> Option (List Char × List Char)
  | 0, _ => none
  | fuel + 1, cs =>
      match cs with
      | '"' :: rest => some ([], rest)
      | '\\' :: rest =>
          match readEscape rest with
          | none => none
          | some (c, rest) =>
              (readBasic fuel rest).map (fun r => (c :: r.1, r.2))
      | c :: rest =>
          if isPlain c then (readBasic fuel rest).map (fun r => (c :: r.1, r.2))
          else none
      | [] => none

def readLiteral : List Char -> Option (List Char × List Char)
  | [] => none
  | c :: rest =>
      if c = '\'' then some ([], rest)
      else if isPlain c then (readLiteral rest).map (fun r => (c :: r.1, r.2))
      else none

/-!
## Strings on several lines

Three quotes end the string. One or two more before them still belong to it.
-/

def spanQuotes (quote : Char) (cs : List Char) : Nat × List Char :=
  ((cs.takeWhile (· == quote)).length, cs.dropWhile (· == quote))

/-- The quotes of a run that belong to the string, if the run ends it. -/
def closing? (quote : Char) (count : Nat) : Option (List Char × List Char) :=
  if count < 3 then none
  else
    let kept := min (count - 3) 2
    some (List.replicate kept quote, List.replicate (count - 3 - kept) quote)

def readBasicLines : Nat -> List Char -> Option (List Char × List Char)
  | 0, _ => none
  | fuel + 1, cs =>
      match cs with
      | [] => none
      | '"' :: _ =>
          let (count, rest) := spanQuotes '"' cs
          match closing? '"' count with
          | some (kept, unread) => some (kept, unread ++ rest)
          | none =>
              (readBasicLines fuel rest).map (fun r =>
                (List.replicate count '"' ++ r.1, r.2))
      | '\\' :: rest =>
          match skipFolded false rest with
          | some rest => readBasicLines fuel rest
          | none =>
              match readEscape rest with
              | none => none
              | some (c, rest) =>
                  (readBasicLines fuel rest).map (fun r => (c :: r.1, r.2))
      | c :: rest =>
          match dropBreak? cs with
          | some rest =>
              (readBasicLines fuel rest).map (fun r => ('\n' :: r.1, r.2))
          | none =>
              if isPlain c then (readBasicLines fuel rest).map
                (fun r => (c :: r.1, r.2))
              else none

def readLiteralLines : Nat -> List Char -> Option (List Char × List Char)
  | 0, _ => none
  | fuel + 1, cs =>
      match cs with
      | [] => none
      | '\'' :: _ =>
          let (count, rest) := spanQuotes '\'' cs
          match closing? '\'' count with
          | some (kept, unread) => some (kept, unread ++ rest)
          | none =>
              (readLiteralLines fuel rest).map
                (fun r => (List.replicate count '\'' ++ r.1, r.2))
      | c :: rest =>
          match dropBreak? cs with
          | some rest =>
              (readLiteralLines fuel rest).map (fun r => ('\n' :: r.1, r.2))
          | none =>
              if isPlain c then (readLiteralLines fuel rest).map
                (fun r => (c :: r.1, r.2))
              else none

def readText (fuel : Nat) (cs : List Char) : Option (List Char × List Char) :=
  match cs with
  | '"' :: '"' :: '"' :: rest => readBasicLines fuel (dropFirstBreak rest)
  | '"' :: rest => readBasic fuel rest
  | '\'' :: '\'' :: '\'' :: rest => readLiteralLines fuel (dropFirstBreak rest)
  | '\'' :: rest => readLiteral rest
  | _ => none

/-!
## Keys
-/

def isKeyChar (c : Char) : Bool :=
  c.isAlphanum || c == '-' || c == '_'

def readSimpleKey (fuel : Nat) (cs : List Char) : Option (String × List Char) :=
  match cs with
  | '"' :: rest => (readBasic fuel rest).map (fun r => (String.ofList r.1, r.2))
  | '\'' :: rest => (readLiteral rest).map (fun r => (String.ofList r.1, r.2))
  | _ =>
      let word := cs.takeWhile isKeyChar
      if word.isEmpty then none
      else some (String.ofList word, cs.dropWhile isKeyChar)

/-- A dotted key has fewer parts than this. -/
def maxDepth : Nat :=
  80

def readKeyParts : Nat -> List Char -> Option (List String × List Char)
  | 0, _ => none
  | fuel + 1, cs =>
      match readSimpleKey fuel (skipSpace cs) with
      | none => none
      | some (part, rest) =>
          match skipSpace rest with
          | '.' :: rest =>
              (readKeyParts fuel rest).map (fun r => (part :: r.1, r.2))
          | rest => some ([part], rest)

def readKey (fuel : Nat) (cs : List Char) : Option (List String × List Char) :=
  (readKeyParts fuel cs).filter (fun r => decide (r.1.length < maxDepth))

end FairLease.Toml
