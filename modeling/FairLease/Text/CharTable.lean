import FairLease.Text.Digits
import FairLease.Text.Split

/-!
# Tables of characters

A property of characters is written down as a table of runs. A code point with
a colon starts a run. The entries after it are for the characters from there
on, one after the other, and the last of them holds up to the next run.
-/

namespace FairLease.Text

structure Run (Entry : Type) where
  start : Nat
  entries : Array Entry

/-- Runs in the order of their starts. -/
structure CharTable (Entry : Type) where
  runs : Array (Run Entry)

namespace CharTable

/-!
## Looking up
-/

/-- The last run from `lo` on and before `hi` that starts no later than `code`,
or the one at `lo` if none does. -/
def search (table : CharTable Entry) (code lo hi : Nat) : Nat :=
  if lo + 1 < hi then
    let mid := (lo + hi) / 2
    match table.runs[mid]? with
    | none => lo
    | some run =>
        if run.start ≤ code then search table code mid hi
        else search table code lo mid
  else lo
termination_by hi - lo
decreasing_by all_goals omega

/-- The entry for a code point, and how far it is from the start of its run. -/
def findAt? (table : CharTable Entry) (code : Nat) : Option (Nat × Entry) := do
  let run ← table.runs[search table code 0 table.runs.size]?
  if code < run.start then none
  let distance := code - run.start
  let entry ← run.entries[min distance (run.entries.size - 1)]?
  return (distance, entry)

def find? (table : CharTable Entry) (c : Char) : Option (Nat × Entry) :=
  table.findAt? c.toNat

def entryFor (table : CharTable Entry) (absent : Entry) (c : Char) : Entry :=
  match table.find? c with
  | none => absent
  | some (_, entry) => entry

def written (table : CharTable Entry) : List (Nat × Entry) :=
  table.runs.toList.flatMap fun run =>
    run.entries.toList.zipIdx.map fun (entry, i) => (run.start + i, entry)

/-!
## Reading
-/

def runStart? (word : List Char) : Option Nat :=
  if word.getLast? = some ':' then numberIn 16 word.dropLast else none

def pushWord (read : List Char -> Entry) (runs : Array (Run Entry))
    (word : List Char) :
    Array (Run Entry) :=
  match runStart? word with
  | some start => runs.push ⟨start, #[]⟩
  | none =>
      runs.modify (runs.size - 1) fun run => { run with entries := run.entries.push (read word) }

def ofText (read : List Char -> Entry) (text : String) : CharTable Entry :=
  ⟨(words text.toList).foldl (pushWord read) #[]⟩

end CharTable

/-- A table of the characters that have a property, which are those marked with
a plus sign. -/
def classTable (text : String) : CharTable Bool :=
  CharTable.ofText (· == ['+']) text

end FairLease.Text
