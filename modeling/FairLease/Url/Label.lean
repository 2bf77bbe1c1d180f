import FairLease.Text.Joining
import FairLease.Text.Normal
import FairLease.Url.Fold
import FairLease.Url.Punycode

/-!
# Labels

A domain name consists of labels. A label outside ASCII may be written in its
own characters or in ASCII, and has the same rules in both forms.
-/

namespace FairLease.Url

def isAscii (c : Char) : Bool :=
  decide (c.toNat < 0x80)

def isForbiddenInDomain (c : Char) : Bool :=
  decide (c.toNat ≤ 0x20) || c.toNat == 0x7F ||
    "#%/:<>?@[\\]^|".toList.contains c

/-!
## Joiners

A joiner follows a sign that joins consonants. The one that prevents joining
may also stand between two letters that would join.
-/

def isJoiner (c : Char) : Bool :=
  c.toNat == 0x200C || c.toNat == 0x200D

/-- The nearest neighbour, which comes first, joins as asked for. -/
def neighbourJoins (joins : Text.Joining -> Bool) (neighbours : List Char) :
    Bool :=
  match neighbours.dropWhile fun c => Text.joining c == .transparent with
  | [] => false
  | c :: _ => joins (Text.joining c)

/-- A joiner may stand between two texts, of which the first one is in
reverse. -/
def joinerFits (c : Char) (before after : List Char) : Bool :=
  before.head?.any Text.isVirama
    || (c.toNat == 0x200C && neighbourJoins Text.Joining.joinsLeft before
        && neighbourJoins Text.Joining.joinsRight after)

def joinersFit : List Char -> List Char -> Bool
  | _, [] => true
  | before, c :: after =>
      (!isJoiner c || joinerFits c before after) &&
        joinersFit (c :: before) after

/-!
## Labels in their own characters
-/

def maxLabelLength : Nat := 1000

/-- A label outside ASCII does not start with a mark, has its joiners where they
belong and is not too long. -/
def isLabel (label : List Char) : Bool :=
  label.all isAscii
    || (!label.head?.any Text.isMark && joinersFit [] label
        && decide (label.length ≤ maxLabelLength))

/-!
## Labels written in ASCII
-/

def maxEncodedLength : Nat := 2000

/-- The label that an encoding stands for, which must be folded and in normal
form. -/
def decodeLabel (encoding : List Char) : Option (List Char) := do
  if !encoding.all isAscii || decide (maxEncodedLength < encoding.length) then
    none
  if encoding.isEmpty || encoding.getLast? == some '-' then none
  let label ← Punycode.decode encoding
  if !isFolded label || Text.normalize label != label then none
  if label.any fun c => c == '.' || isForbiddenInDomain c then none
  return label

def label? (label : List Char) : Option (List Char) :=
  match label with
  | 'x' :: 'n' :: '-' :: '-' :: encoding =>
      (decodeLabel encoding).filter isLabel
  | label => if isLabel label then some label else none

end FairLease.Url
