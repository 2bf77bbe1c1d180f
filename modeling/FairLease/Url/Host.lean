import FairLease.Url.Address
import FairLease.Url.Domain

/-!
# Hosts

The host of a web address is an address in brackets, an IPv4 address in any of
its spellings, or a domain name.
-/

namespace FairLease.Url

inductive UrlError where
  | emptyHost
  | invalidDomainName
  | invalidPort
  | invalidIpv4
  | invalidIpv6
  | invalidHostCharacter
  | relative
  deriving DecidableEq, Repr

def UrlError.message : UrlError -> String
  | emptyHost => "empty host"
  | invalidDomainName => "invalid international domain name"
  | invalidPort => "invalid port number"
  | invalidIpv4 => "invalid IPv4 address"
  | invalidIpv6 => "invalid IPv6 address"
  | invalidHostCharacter => "invalid domain character"
  | relative => "relative URL without a base"

inductive Host where
  | ipv6 (groups : List Nat)
  | ipv4 (address : Nat)
  | domain (name : List Char)
  deriving DecidableEq, Repr

/-!
## Hosts of web addresses
-/

def bracketed (cs : List Char) : Except UrlError Host :=
  if cs.getLast? = some ']' then
    match ipv6? cs.tail.dropLast with
    | some groups => .ok (.ipv6 groups)
    | none => .error .invalidIpv6
  else .error .invalidIpv6

def decodedText (cs : List Char) : Option (List Char) :=
  (String.fromUTF8? ⟨(percentDecode cs).toArray⟩).map String.toList

def Host.parse : List Char -> Except UrlError Host
  | '[' :: rest => bracketed ('[' :: rest)
  | cs =>
      match (decodedText cs).bind domainName with
      | none => .error .invalidDomainName
      | some name =>
          if name.isEmpty then .error .emptyHost
          else if endsInNumber name then
            match ipv4? name with
            | some address => .ok (.ipv4 address)
            | none => .error .invalidIpv4
          else .ok (.domain name)

/-- Hosts of other URLs are kept as they are. -/
def Host.check : List Char -> Except UrlError Unit
  | '[' :: rest => (bracketed ('[' :: rest)).map (fun _ => ())
  | cs =>
      if cs.any (fun c => c.toNat == 0 ||
          " #/:<>?@[\\]^|\t\n\r".toList.contains c) then
        .error .invalidHostCharacter
      else .ok ()

end FairLease.Url
