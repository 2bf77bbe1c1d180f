import FairLease.Json.Number
import FairLease.Json.Text

/-!
# Reading JSON

A JSON text is one value with blanks around it and around its punctuation.
The reader works on the list of characters and hands back what it did not use.
Its fuel is computed from the length of the text: every second call uses up at
least one character.
-/

namespace FairLease.Json

def isBlank (c : Char) : Bool :=
  c == ' ' || c == '\n' || c == '\t' || c == '\r'

def skipBlank (cs : List Char) : List Char :=
  cs.dropWhile isBlank

def readText (cs : List Char) : Option (Option String × List Char) := do
  let (units, rest) ← pieces cs
  return ((join units).map String.ofList, rest)

/-- A name that has no value makes the whole object unreadable. -/
def consMember (name : Option String) (value rest : Json) : Json :=
  match name, rest with
  | some name, object members => object ((name, value) :: members)
  | _, _ => unreadable

def consItem (item : Json) : Json -> Json
  | array items => array (item :: items)
  | _ => unreadable

mutual

def readValue : Nat -> List Char -> Option (Json × List Char)
  | 0, _ => none
  | fuel + 1, cs =>
      match skipBlank cs with
      | 'n' :: 'u' :: 'l' :: 'l' :: rest => some (null, rest)
      | 't' :: 'r' :: 'u' :: 'e' :: rest => some (bool true, rest)
      | 'f' :: 'a' :: 'l' :: 's' :: 'e' :: rest => some (bool false, rest)
      | '"' :: rest =>
          match readText rest with
          | none => none
          | some (none, rest) => some (unreadable, rest)
          | some (some s, rest) => some (string s, rest)
      | '[' :: rest =>
          match skipBlank rest with
          | ']' :: rest => some (array [], rest)
          | rest => readItems fuel rest
      | '{' :: rest =>
          match skipBlank rest with
          | '}' :: rest => some (object [], rest)
          | rest => readMembers fuel rest
      | rest =>
          match readLiteral rest with
          | none => none
          | some (literal, rest) => some (literal.toJson, rest)

def readItems : Nat -> List Char -> Option (Json × List Char)
  | 0, _ => none
  | fuel + 1, cs =>
      match readValue fuel cs with
      | none => none
      | some (item, rest) =>
          match skipBlank rest with
          | ']' :: rest => some (array [item], rest)
          | ',' :: rest =>
              match readItems fuel rest with
              | none => none
              | some (items, rest) => some (consItem item items, rest)
          | _ => none

def readMembers : Nat -> List Char -> Option (Json × List Char)
  | 0, _ => none
  | fuel + 1, cs =>
      match skipBlank cs with
      | '"' :: rest =>
          match readText rest with
          | none => none
          | some (name, rest) =>
              match skipBlank rest with
              | ':' :: rest =>
                  match readValue fuel rest with
                  | none => none
                  | some (value, rest) =>
                      match skipBlank rest with
                      | '}' :: rest =>
                          some (consMember name value (object []), rest)
                      | ',' :: rest =>
                          match readMembers fuel rest with
                          | none => none
                          | some (members, rest) =>
                              some (consMember name value members, rest)
                      | _ => none
              | _ => none
      | _ => none

end

def fuelFor (cs : List Char) : Nat :=
  2 * cs.length + 2

def readFirst (cs : List Char) : Option (Json × List Char) :=
  readValue (fuelFor cs) cs

def parseChars (cs : List Char) : Option Json :=
  match readFirst cs with
  | none => none
  | some (value, rest) => if (skipBlank rest).isEmpty then some value else none

def parse? (text : String) : Option Json :=
  parseChars text.toList

/-- The value a text begins with, if a reader of whole values accepts it. -/
def readSound (cs : List Char) : Option (Json × List Char) :=
  (readFirst cs).filter fun (value, _) => isSound maxDepth value

end FairLease.Json
