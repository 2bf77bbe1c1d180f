import FairLease.CommandLine.Flag

/-!
# Reading the command line

The words of the command line are read from left to right. A flag may have its
value attached by an equals sign, or take the next word. A value in a word of
its own is only looked at when the next flag begins, so that an unknown word
after it is reported first. After two hyphens no word is a flag.
-/

namespace FairLease.CommandLine

inductive Word where
  | separator
  | long (name : String) (value : Option String)
  | short (letters : List Char)
  | plain (text : String)
  deriving DecidableEq, Repr

def splitEquals (cs : List Char) : String × Option String :=
  let name := cs.takeWhile (· != '=')
  match cs.dropWhile (· != '=') with
  | _ :: value => (String.ofList name, some (String.ofList value))
  | [] => (String.ofList name, none)

def Word.ofText (text : String) : Word :=
  match text.toList with
  | ['-', '-'] => separator
  | '-' :: '-' :: rest => long (splitEquals rest).1 (splitEquals rest).2
  | ['-'] => plain text
  | '-' :: rest => short rest
  | _ => plain text

structure Reading where
  arguments : Arguments
  /-- A flag whose value has not been looked at, and the value if it is
  there. -/
  pending : Option (Flag × Option String)
  deriving DecidableEq, Repr

namespace Reading

def start : Reading :=
  ⟨.none, none⟩

def resolve (r : Reading) : Except UsageError Arguments :=
  match r.pending with
  | none => .ok r.arguments
  | some (_, none) => .error .missingValue
  | some (flag, some value) => r.arguments.set flag value

def askForHelp (r : Reading) : UsageError :=
  match r.resolve with
  | .error e => e
  | .ok _ => .displayHelp

def readLong (name : String) (value : Option String) (r : Reading) :
    Except UsageError Reading := do
  if name = "help" then
    .error (if value.isSome then .unexpectedValue else r.askForHelp)
  match Flag.ofName? name, value with
  | none, _ => .error .unknownArgument
  | some flag, some value => return ⟨← (← r.resolve).set flag value, none⟩
  | some flag, none => return ⟨← r.resolve, some (flag, none)⟩

/-- A word that is no flag is the value of the flag before it, or unknown. -/
def readPlain (text : String) (r : Reading) : Except UsageError Reading :=
  match r.pending with
  | some (flag, none) => .ok { r with pending := some (flag, some text) }
  | _ => .error .unknownArgument

def read (r : Reading) : Word -> Except UsageError Reading
  | .long name value => r.readLong name value
  | .short letters => .error (if letters.head? = some 'h' then r.askForHelp else .unknownArgument)
  | .plain text => r.readPlain text
  | .separator => .ok r

end Reading

/-- Read the remaining words. Nothing may follow two hyphens. -/
def readWords : List String -> Reading -> Except UsageError Arguments
  | [], r => r.resolve
  | word :: rest, r =>
      match Word.ofText word with
      | .separator =>
          if rest.isEmpty then r.resolve else .error .unknownArgument
      | w =>
          match r.read w with
          | .error e => .error e
          | .ok r => readWords rest r

def parse (words : List String) : Except UsageError Arguments :=
  readWords words .start

end FairLease.CommandLine
