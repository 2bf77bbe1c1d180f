import FairLease.Claim.Error
import FairLease.Text.Affix

/-!
# Claim keys

The claim on a resource is stored under the root of the claims, with every
slash of the identifier written as two colons so that the key has no further
levels. Identifiers for which this could not be undone are refused.
-/

namespace FairLease.ClaimKey

/-!
## Escaping
-/

def escape : List Char -> List Char
  | [] => []
  | c :: rest => if c = '/' then ':' :: ':' :: escape rest else c :: escape rest

/-- Pairs of colons are taken from the left. -/
def unescape : List Char -> List Char
  | ':' :: ':' :: rest => '/' :: unescape rest
  | c :: rest => c :: unescape rest
  | [] => []

/-!
## Keys and identifiers
-/

def ofCidr (root cidr : String) : String :=
  root ++ String.ofList (escape cidr.toList)

/-- The resource a key claims. A key that is not under the root claims none. -/
def toCidr (root key : String) : Except ClaimError String :=
  match Text.dropLeading? root.toList key.toList with
  | some (c :: rest) => .ok (String.ofList (unescape (c :: rest)))
  | _ => .error (.corruptedKey key root)

def hasPair (a b : Char) : List Char -> Bool
  | [] => false
  | [_] => false
  | c :: d :: rest => (c == a && d == b) || hasPair a b (d :: rest)

/-- Two colons would be read as a slash, and a colon beside a slash would become
part of its escape. -/
def defect? (cidr : String) : Option ClaimDefect :=
  let cs := cidr.toList
  if cs.isEmpty then some .emptyIdentifier
  else if hasPair ':' ':' cs then some (.doubledColon cidr)
  else if hasPair ':' '/' cs || hasPair '/' ':' cs then
    some (.colonBesideSlash cidr)
  else none

def validate (cidr : String) : Except ClaimError Unit :=
  match defect? cidr with
  | some defect => .error (.invalidClaim defect)
  | none => .ok ()

end FairLease.ClaimKey
