import FairLease.Json.Basic

/-!
# Records in JSON

A record is written as an object, and may also be given as the array of its
fields in order. Reading one first sorts its cells: an object may leave fields
out and carry others, which are skipped, but may not repeat one; an array may
only leave off fields at its end that have a default.
-/

namespace FairLease.Json

structure Field where
  name : String
  hasDefault : Bool
  deriving DecidableEq, Repr

/-- A field that must be written in the array form. -/
def field (name : String) : Field :=
  ⟨name, false⟩

def fieldWithDefault (name : String) : Field :=
  ⟨name, true⟩

/-- A member that occurs once, or not at all. -/
def memberCell (members : List (String × Json)) (f : Field) :
    Option (Option Json) :=
  match members.filter (fun m => m.1 == f.name) with
  | [] => some none
  | [m] => some (some m.2)
  | _ => none

def itemCells : List Field -> List Json -> Option (List (Option Json))
  | [], [] => some []
  | [], _ :: _ => none
  | f :: rest, [] =>
      if f.hasDefault then (itemCells rest []).map (none :: ·) else none
  | _ :: rest, item :: items => (itemCells rest items).map (some item :: ·)

def cells (fields : List Field) : Json -> Option (List (Option Json))
  | object members => fields.mapM (memberCell members)
  | array items => itemCells fields items
  | _ => none

/-!
## Cells

The three ways to read a cell differ in what they make of an absent one.
-/

def required {α : Type} (read : Json -> Option α) : Option Json -> Option α
  | none => none
  | some j => read j

/-- An absent cell and `null` both stand for no value. -/
def optional {α : Type} (read : Json -> Option α) :
    Option Json -> Option (Option α)
  | none => some none
  | some null => some none
  | some j => (read j).map some

def withDefault {α : Type} (default : α) (read : Json -> Option α) :
    Option Json -> Option α
  | none => some default
  | some j => read j

def listOf {α : Type} (read : Json -> Option α) : Json -> Option (List α)
  | array items => items.mapM read
  | _ => none

/-!
## Tagged values

A choice is written as the object of one member named by its tag. A choice
without fields may also be written as the bare tag.
-/

def tagged : Json -> Option (String × Option Json)
  | string tag => some (tag, none)
  | object [(tag, content)] => some (tag, some content)
  | _ => none

def bareTag (j : Json) : Option String :=
  match tagged j with
  | some (tag, none) => some tag
  | some (tag, some null) => some tag
  | _ => none

end FairLease.Json
