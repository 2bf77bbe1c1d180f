import FairLease.Text.Direction
import FairLease.Url.Label

/-!
# Domain names

A domain name is a sequence of labels with dots between them. It is folded and
brought into normal form before it is looked at.
-/

namespace FairLease.Url

/-!
## Direction

In a name with text that is written from right to left, the order in which the
characters of a label are shown must not depend on the other labels.
-/

def isFromRight (d : Text.Direction) : Bool :=
  d == .rightToLeft || d == .arabicLetter

def isNeutral (d : Text.Direction) : Bool :=
  [.europeanNumber, .numberSeparator, .numberTerminator, .commonSeparator,
    .mark, .neutral, .boundary].contains d

def lastDirection (classes : List Text.Direction) : Option Text.Direction :=
  (classes.reverse.dropWhile (· == .mark)).head?

/-- A label that starts from the left goes on from the left, and ends in a
letter or a number. -/
def runsFromLeft (classes : List Text.Direction) : Bool :=
  classes.all (fun d => d == .leftToRight || isNeutral d)
    && (lastDirection classes).any fun d => d == .leftToRight ||
      d == .europeanNumber

/-- A label that starts from the right goes on from the right, ends in a letter
or a number, and has numbers of one kind. -/
def runsFromRight (classes : List Text.Direction) : Bool :=
  classes.all (fun d => isFromRight d || d == .arabicNumber || isNeutral d)
    && (lastDirection classes).any (fun d =>
      isFromRight d || d == .europeanNumber || d == .arabicNumber)
    && !(classes.contains .europeanNumber && classes.contains .arabicNumber)

def keepsOrder (label : List Char) : Bool :=
  let classes := label.map Text.direction
  match classes.head? with
  | none => true
  | some .leftToRight => runsFromLeft classes
  | some first => isFromRight first && runsFromRight classes

/-- Text that is written from right to left. No such script comes before
Hebrew. -/
def hasDirection (c : Char) : Bool :=
  decide (0x590 ≤ c.toNat)
    && (isFromRight (Text.direction c) || Text.direction c == .arabicNumber)

/-!
## Names
-/

def domainLabels (cs : List Char) : Option (List (List Char)) := do
  let name := Text.normalize (← fold cs)
  if name.any isForbiddenInDomain then none
  let labels ← (Text.splitAt '.' name).mapM label?
  if labels.any (·.any hasDirection) && !labels.all keepsOrder then none
  return labels

def domainName (cs : List Char) : Option (List Char) :=
  (domainLabels cs).map (Text.joinWith '.')

end FairLease.Url
