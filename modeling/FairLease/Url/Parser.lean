import FairLease.Url.Host
import FairLease.Url.Path
import FairLease.Text.Digits

/-!
# Reading URLs

A URL is a scheme and what the scheme makes of the rest. Web schemes have a
host, a port and a path; slashes of either kind lead up to the host, and tabs
and line breaks do not count. Other schemes are only checked.
-/

namespace FairLease.Url

structure WebUrl where
  scheme : String
  host : Host
  port : Option Nat
  path : List Char
  query : Option (List Char)
  deriving DecidableEq, Repr

/-- A URL, of which only web addresses are kept. -/
inductive Parsed where
  | web (url : WebUrl)
  | other (scheme : String)
  deriving DecidableEq, Repr

/-!
## Parts of an address
-/

def isSchemeChar (c : Char) : Bool :=
  c.isAlphanum || c == '+' || c == '-' || c == '.'

def takeScheme (cs : List Char) : Option (String × List Char) :=
  match cs with
  | [] => none
  | c :: _ =>
      if c.isAlpha then
        match cs.dropWhile isSchemeChar with
        | ':' :: rest =>
            some (String.ofList
              ((cs.takeWhile isSchemeChar).map Char.toLower), rest)
        | _ => none
      else none

def isWebScheme (scheme : String) : Bool :=
  ["http", "https", "ws", "wss", "ftp"].contains scheme

def defaultPort (scheme : String) : Option Nat :=
  match scheme with
  | "http" => some 80
  | "ws" => some 80
  | "https" => some 443
  | "wss" => some 443
  | "ftp" => some 21
  | _ => none

def endsAuthority (isWeb : Bool) (c : Char) : Bool :=
  c == '/' || c == '?' || c == '#' || (isWeb && c == '\\')

def splitUser (authority : List Char) : Option (List Char × List Char) :=
  if authority.contains '@' then
    let host := (authority.reverse.takeWhile (· != '@')).reverse
    some (authority.take (authority.length - host.length - 1), host)
  else none

/-- The characters of a host: up to a colon outside brackets. -/
def spanHost : Bool -> List Char -> List Char × List Char
  | _, [] => ([], [])
  | isInside, c :: rest =>
      if c = ':' ∧ isInside = false then ([], c :: rest)
      else
        let inside :=
          if c = '[' then true else if c = ']' then false else isInside
        (c :: (spanHost inside rest).1, (spanHost inside rest).2)

/-- The port after a colon. An empty port is the default one. -/
def parsePort (scheme : String) (digits : List Char) :
    Except UrlError (Option Nat) :=
  if !digits.all Char.isDigit then .error .invalidPort
  else if 65535 < Text.digitsValue digits then .error .invalidPort
  else if digits.isEmpty ||
      some (Text.digitsValue digits) = defaultPort scheme then .ok none
  else .ok (some (Text.digitsValue digits))

def WebUrl.effectivePort (url : WebUrl) : Option Nat :=
  url.port.orElse (fun _ => defaultPort url.scheme)

/-!
## Authorities

The authority of an address is an optional user, a host and an optional port.
-/

structure Authority where
  host : List Char
  port : Option (List Char)

def Authority.ofHost (cs : List Char) : Authority :=
  let (host, rest) := spanHost false cs
  ⟨host, match rest with
    | ':' :: port => some port
    | _ => none⟩

/-- A user must be followed by a host, unless both the name and the password
are empty. -/
def Authority.split (authority : List Char) : Except UrlError Authority :=
  match splitUser authority with
  | none => .ok (ofHost authority)
  | some (user, host) =>
      if host.isEmpty && user != [':'] then .error .emptyHost
      else .ok (ofHost host)

def parseWebAuthority (scheme : String) (authority : List Char) :
    Except UrlError (Host × Option Nat) := do
  let a ← Authority.split authority
  if a.host.isEmpty then .error .emptyHost
  let host ← Host.parse a.host
  match a.port with
  | none => return (host, none)
  | some digits => return (host, ← parsePort scheme digits)

def checkAuthority (scheme : String) (authority : List Char) :
    Except UrlError Unit := do
  let a ← Authority.split authority
  Host.check a.host
  match a.port with
  | none => return ()
  | some digits =>
      if a.host.isEmpty then .error .emptyHost
      let _ ← parsePort scheme (digits.takeWhile (· != '\\'))
      return ()

/-!
## Whole addresses
-/

def isControlOrSpace (c : Char) : Bool :=
  decide (c.toNat ≤ 0x20)

/-- A URL has no blanks or controls at its ends, and no tabs or line breaks. -/
def cleaned (cs : List Char) : List Char :=
  (((cs.dropWhile isControlOrSpace).reverse.dropWhile
    isControlOrSpace).reverse).filter (fun c => !isTabOrBreak c)

def parseQuery : List Char -> Option (List Char)
  | '?' :: rest => some (percentEncode inQuerySet (rest.takeWhile (· != '#')))
  | _ => none

def parseWeb (scheme : String) (cs : List Char) : Except UrlError WebUrl := do
  let cs := cs.dropWhile isSlash
  let authority := cs.takeWhile (fun c => !endsAuthority true c)
  let rest := cs.dropWhile (fun c => !endsAuthority true c)
  let (host, port) ← parseWebAuthority scheme authority
  let isPathChar := fun c => c != '?' && c != '#'
  return { scheme, host, port, path := normalizePath (rest.takeWhile isPathChar)
           query := parseQuery (rest.dropWhile isPathChar) }

/-- A file has a host only after two slashes, and none before a drive letter. -/
def checkFile : List Char -> Except UrlError Unit
  | a :: b :: rest =>
      if isSlash a && isSlash b then
        let host := rest.takeWhile (fun c => !endsAuthority true c)
        if host.isEmpty || isDriveLetter host then .ok ()
        else (Host.parse host).map (fun _ => ())
      else .ok ()
  | _ => .ok ()

/-- An authority follows two slashes. A lone at sign at the end names nobody. -/
def checkOther (scheme : String) : List Char -> Except UrlError Unit
  | '/' :: '/' :: rest =>
      if rest = ['@'] then .ok ()
      else checkAuthority scheme
        (rest.takeWhile (fun c => !endsAuthority false c))
  | _ => .ok ()

def parse (text : String) : Except UrlError Parsed :=
  match takeScheme (cleaned text.toList) with
  | none => .error .relative
  | some (scheme, rest) =>
      if isWebScheme scheme then (parseWeb scheme rest).map .web
      else if scheme = "file" then (checkFile rest).map (fun _ => .other scheme)
      else (checkOther scheme rest).map (fun _ => .other scheme)

end FairLease.Url
