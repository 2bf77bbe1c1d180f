import FairLease.Json.Basic
import FairLease.Json.Text

/-!
# Writing JSON

Values are written without blanks, members in the order they have.
-/

namespace FairLease.Json

def natChars (n : Nat) : List Char :=
  Nat.toDigits 10 n

def Number.chars : Number -> List Char
  | .natural n => natChars n
  | .negative n => '-' :: natChars n
  | .real literal => literal.toList

mutual

/-- An unreadable value has no text of its own and is written as `null`. -/
def chars : Json -> List Char
  | null => ['n', 'u', 'l', 'l']
  | bool true => ['t', 'r', 'u', 'e']
  | bool false => ['f', 'a', 'l', 's', 'e']
  | number n => n.chars
  | string s => quote s.toList
  | array [] => ['[', ']']
  | array (item :: rest) => '[' :: chars item ++ itemsChars rest
  | object [] => ['{', '}']
  | object (member :: rest) =>
      '{' :: quote member.1.toList ++ ':' :: chars member.2 ++ membersChars rest
  | unreadable => ['n', 'u', 'l', 'l']

def itemsChars : List Json -> List Char
  | [] => [']']
  | item :: rest => ',' :: chars item ++ itemsChars rest

def membersChars : List (String × Json) -> List Char
  | [] => ['}']
  | member :: rest =>
      ',' :: quote member.1.toList ++ ':' :: chars member.2 ++ membersChars rest

end

def compact (j : Json) : String :=
  String.ofList j.chars

end FairLease.Json
