import FairLease.Text.Visible

/-!
# Quoted text in messages

Messages that show a stored value put it between double quotes. Characters that
would be invisible, or would combine with the quote, are written by their code
point.
-/

namespace FairLease.Text

/-- Lower case hexadecimal digits without leading zeros. -/
def hexChars (n : Nat) : List Char :=
  Nat.toDigits 16 n

def codePointEscape (c : Char) : List Char :=
  '\\' :: 'u' :: '{' :: hexChars c.toNat ++ ['}']

def quotedChar (c : Char) : List Char :=
  if c = '"' then ['\\', '"']
  else if c = '\\' then ['\\', '\\']
  else if c = '\n' then ['\\', 'n']
  else if c = '\r' then ['\\', 'r']
  else if c = '\t' then ['\\', 't']
  else if c.toNat = 0 then ['\\', '0']
  else if !isVisible c then codePointEscape c
  else [c]

def quoted (s : String) : String :=
  String.ofList ('"' :: s.toList.flatMap quotedChar ++ ['"'])

def quotedOption : Option String -> String
  | none => "None"
  | some s => "Some(" ++ quoted s ++ ")"

end FairLease.Text
