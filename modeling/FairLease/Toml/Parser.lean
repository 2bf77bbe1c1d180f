import FairLease.Toml.Number
import FairLease.Toml.Text

/-!
# Reading TOML

A document is a sequence of lines, each of them a header, a key with its value,
or nothing, and each with an optional comment. Values may be continued on
further lines inside brackets only.
-/

namespace FairLease.Toml

/-!
## Blanks and comments
-/

/-- A comment goes on to the next character it may not contain. -/
def skipComment : List Char -> List Char
  | '#' :: rest => rest.dropWhile isPlain
  | cs => cs

/-- Skip blanks, line breaks and comments, from inside a comment or not. -/
def skipLines : Bool -> List Char -> List Char
  | _, [] => []
  | _, '\r' :: '\n' :: rest => skipLines false rest
  | isComment, c :: rest =>
      if c = '\n' then skipLines false rest
      else if isComment then if isPlain c then
        skipLines true rest else c :: rest
      else if c = '#' then skipLines true rest
      else if isSpace c then skipLines false rest
      else c :: rest

def skipAll (cs : List Char) : List Char :=
  skipLines false cs

def endLine (cs : List Char) : Option (List Char) :=
  match skipComment (skipSpace cs) with
  | [] => some []
  | rest => dropBreak? rest

/-!
## Values

Arrays and inline tables nest less than `maxDepth` deep. A character of a value
takes two steps at most.
-/

mutual

def readValue : Nat -> Nat -> List Char -> Option (Value × List Char)
  | 0, _, _ => none
  | fuel + 1, depth, cs =>
      match cs with
      | 't' :: 'r' :: 'u' :: 'e' :: rest => some (.boolean true, rest)
      | 'f' :: 'a' :: 'l' :: 's' :: 'e' :: rest => some (.boolean false, rest)
      | '[' :: rest =>
          if depth + 1 < maxDepth then
            (readItems fuel (depth + 1) (skipAll rest)).map
              (fun r => (.array r.1, r.2))
          else none
      | '{' :: rest =>
          if depth + 1 < maxDepth then
            match skipSpace rest with
            | '}' :: rest => some (.table .inline [], rest)
            | rest => (readPairs fuel (depth + 1) [] rest).map (fun r => (.table .inline r.1, r.2))
          else none
      | c :: _ =>
          if c = '"' ∨ c = '\'' then
            (readText fuel cs).map (fun r => (.string (String.ofList r.1), r.2))
          else readNumber cs
      | [] => none

/-- The items of an array and its closing bracket. A comma may follow the
last. -/
def readItems : Nat -> Nat -> List Char -> Option (List Value × List Char)
  | 0, _, _ => none
  | fuel + 1, depth, cs =>
      match cs with
      | ']' :: rest => some ([], rest)
      | _ =>
          match readValue fuel depth cs with
          | none => none
          | some (item, rest) =>
              match skipAll rest with
              | ']' :: rest => some ([item], rest)
              | ',' :: rest =>
                  (readItems fuel depth (skipAll rest)).map
                    (fun r => (item :: r.1, r.2))
              | _ => none

def readPairs :
    Nat -> Nat -> Members -> List Char -> Option (Members × List Char)
  | 0, _, _, _ => none
  | fuel + 1, depth, m, cs =>
      match readKey fuel cs with
      | some (key, '=' :: rest) =>
          match readValue fuel depth (skipSpace rest) with
          | none => none
          | some (v, rest) =>
              match m.set key v with
              | none => none
              | some m =>
                  match skipSpace rest with
                  | '}' :: rest => some (m, rest)
                  | ',' :: rest => readPairs fuel depth m rest
                  | _ => none
      | _ => none

end

/-!
## Documents
-/

/-- The table that keys are put into, and all tables. -/
structure Document where
  current : List String
  root : Members

namespace Document

def empty : Document :=
  ⟨[], []⟩

def openHeader (isItem : Bool) (path : List String) (d : Document) :
    Option Document :=
  (if isItem then d.root.openItem path
    else d.root.openTable path).map (⟨path, ·⟩)

def put (key : List String) (v : Value) (d : Document) : Option Document :=
  (d.root.within d.current (Members.set key v)).map (fun root => { d with root })

def readHeader (fuel : Nat) (isItem : Bool) (cs : List Char) (d : Document) :
    Option (Document × List Char) := do
  let (path, rest) ← readKey fuel cs
  let rest ←
    match isItem, rest with
    | true, ']' :: ']' :: rest => some rest
    | false, ']' :: rest => some rest
    | _, _ => none
  return (← d.openHeader isItem path, ← endLine rest)

def readPair (fuel : Nat) (cs : List Char) (d : Document) :
    Option (Document × List Char) := do
  match ← readKey fuel cs with
  | (key, '=' :: rest) =>
      let (v, rest) ← readValue (2 * fuel) 0 (skipSpace rest)
      return (← d.put key v, ← endLine rest)
  | _ => none

/-- Read line after line. Each uses up at least one character. -/
def readLines : Nat -> List Char -> Document -> Option Document
  | 0, _, _ => none
  | fuel + 1, cs, d =>
      match skipAll cs with
      | [] => some d
      | '[' :: '[' :: rest =>
          match readHeader fuel true rest d with
          | none => none
          | some (d, rest) => readLines fuel rest d
      | '[' :: rest =>
          match readHeader fuel false rest d with
          | none => none
          | some (d, rest) => readLines fuel rest d
      | rest =>
          match readPair fuel rest d with
          | none => none
          | some (d, rest) => readLines fuel rest d

end Document

/-- A mark at the front that says how the text was encoded is skipped. -/
def withoutMark : List Char -> List Char
  | c :: rest => if c.toNat = 0xFEFF then rest else c :: rest
  | [] => []

def parse? (text : String) : Option Members :=
  let cs := withoutMark text.toList
  (Document.readLines (cs.length + 1) cs .empty).map (·.root)

end FairLease.Toml
