/-!
# TOML values

What a TOML text stands for. Tables remember how they came to be, because that
decides whether they may be added to: a table may be spread over dotted keys, or
implied by the headers of its parts and then given a header of its own, but it
is never opened twice. Of numbers with a fraction, dates and times it is only
kept that there is one.
-/

namespace FairLease.Toml

inductive Origin where
  /-- Opened by a header, or an item of an array of tables. -/
  | header
  /-- Implied by the header of a table inside it. -/
  | implied
  /-- Made by a dotted key. -/
  | dotted
  /-- Written between braces and complete. -/
  | inline
  deriving DecidableEq, Repr

inductive Value where
  | string (s : String)
  | integer (n : Int)
  | fractional
  | boolean (b : Bool)
  | moment
  | array (items : List Value)
  | table (origin : Origin) (members : List (String × Value))
  | tables (items : List (List (String × Value)))
  deriving Inhabited

abbrev Members : Type :=
  List (String × Value)

namespace Members

def replace (key : String) (v : Value) (m : Members) : Members :=
  m.map (fun p => if p.1 = key then (key, v) else p)

/-!
## Keys with a value

A dotted key makes the tables it needs. It may pass through tables that were
implied or made by dotted keys, but its last table must be its own.
-/

def set : List String -> Value -> Members -> Option Members
  | [], _, _ => none
  | [key], v, m =>
      if (m.lookup key).isSome then none else some (m ++ [(key, v)])
  | key :: next :: rest, v, m =>
      match m.lookup key with
      | none => (set (next :: rest) v []).map (fun sub => m ++ [(key, .table .dotted sub)])
      | some (.table .dotted sub) =>
          (set (next :: rest) v sub).map (fun sub =>
            m.replace key (.table .dotted sub))
      | some (.table .implied sub) =>
          if rest.isEmpty then none
          else (set (next :: rest) v sub).map
            (fun sub => m.replace key (.table .implied sub))
      | some (.tables items) =>
          if rest.isEmpty then none
          else
            match items.getLast? with
            | none => none
            | some sub =>
                (set (next :: rest) v sub).map
                  (fun sub => m.replace key (.tables (items.dropLast ++ [sub])))
      | _ => none

/-!
## Headers

The path of a header leads through tables of every kind but complete ones, and
through the last item of an array of tables. What is missing is implied.
-/

def within :
    List String -> (Members -> Option Members) -> Members -> Option Members
  | [], f, m => f m
  | key :: rest, f, m =>
      match m.lookup key with
      | none =>
          (within rest f []).map (fun sub => m ++ [(key, .table .implied sub)])
      | some (.table .inline _) => none
      | some (.table origin sub) =>
          (within rest f sub).map (fun sub => m.replace key (.table origin sub))
      | some (.tables items) =>
          match items.getLast? with
          | none => none
          | some sub =>
              (within rest f sub).map
                (fun sub => m.replace key (.tables (items.dropLast ++ [sub])))
      | _ => none

def openTable (path : List String) (m : Members) : Option Members :=
  match path.getLast? with
  | none => none
  | some key =>
      m.within path.dropLast (fun m =>
        match m.lookup key with
        | none => some (m ++ [(key, .table .header [])])
        | some (.table .implied sub) =>
            some (m.replace key (.table .header sub))
        | _ => none)

def openItem (path : List String) (m : Members) : Option Members :=
  match path.getLast? with
  | none => none
  | some key =>
      m.within path.dropLast (fun m =>
        match m.lookup key with
        | none => some (m ++ [(key, .tables [[]])])
        | some (.tables items) => some (m.replace key (.tables (items ++ [[]])))
        | _ => none)

end Members
end FairLease.Toml
