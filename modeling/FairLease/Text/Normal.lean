import FairLease.Text.Composite
import FairLease.Text.Mark

/-!
# Normal form

Texts that mean the same have one normal form. It is made by taking all
composites apart, putting marks in the order of their classes, and forming
composites again.
-/

namespace FairLease.Text

/-!
## Taking apart
-/

/-- Composites nest less deep than this. -/
def compositeDepth : Nat := 4

def decomposeWithin : Nat -> Char -> List Char
  | 0, c => [c]
  | depth + 1, c =>
      match pairOf? c with
      | none => [c]
      | some (a, b) => decomposeWithin depth a ++ [b]

def decompose (c : Char) : List Char :=
  decomposeWithin compositeDepth c

/-!
## Order of marks

Marks that may change places are sorted by their classes. Marks of one class
keep their order.
-/

/-- The text with every run of characters whose class is not zero sorted by
class. -/
def sortRuns (classOf : Char -> Nat) : List Char -> List Char
  | [] => []
  | c :: rest =>
      if classOf c = 0 then c :: sortRuns classOf rest
      else
        let run := c :: rest.takeWhile (classOf · != 0)
        run.mergeSort (fun a b => decide (classOf a ≤ classOf b))
          ++ sortRuns classOf (rest.dropWhile (classOf · != 0))
termination_by cs => cs.length
decreasing_by
  · simp
  · have := (List.dropWhile_suffix (classOf · != 0) (l := rest)).length_le
    simp only [List.length_cons]
    omega

def reorder (cs : List Char) : List Char :=
  sortRuns combiningClass cs

def isMovable (c : Char) : Bool :=
  combiningClass c != 0

/-!
## Putting together

A mark forms a composite with the last character that is not movable, unless a
mark of the same or a higher class, or a character that is not movable, stands
between them.
-/

/-- A text in the making, of which the lists are in reverse. -/
structure Composition where
  done : List Char
  /-- The last character that is not movable. -/
  base : Option Char
  marks : List Char

namespace Composition

def finish (s : Composition) : List Char :=
  s.marks ++ s.base.toList ++ s.done

/-- Nothing between the base and a character keeps them apart. -/
def reaches (s : Composition) (c : Char) : Bool :=
  match s.marks with
  | [] => true
  | mark :: _ => decide (combiningClass mark < combiningClass c)

def push (s : Composition) (c : Char) : Composition :=
  match s.base.bind fun base =>
    if s.reaches c then compositeOf? base c else none with
  | some composite => { s with base := some composite }
  | none =>
      if isMovable c then { s with marks := c :: s.marks }
      else { done := s.finish, base := some c, marks := [] }

end Composition

def compose (cs : List Char) : List Char :=
  (cs.foldl Composition.push ⟨[], none, []⟩).finish.reverse

/-- Characters before the first mark are not affected. -/
def normalize (cs : List Char) : List Char :=
  if cs.all fun c => decide (c.toNat < 0x300) then cs
  else compose (reorder (cs.flatMap decompose))

end FairLease.Text
