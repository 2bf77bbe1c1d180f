/-!
# Leading text

A key belongs to a namespace when it starts with the namespace.
-/

namespace FairLease.Text

def dropLeading? (lead s : List Char) : Option (List Char) :=
  match lead, s with
  | [], s => some s
  | _ :: _, [] => none
  | a :: lead, c :: s => if a = c then dropLeading? lead s else none

def startsWith (s lead : String) : Bool :=
  (dropLeading? lead.toList s.toList).isSome

end FairLease.Text
