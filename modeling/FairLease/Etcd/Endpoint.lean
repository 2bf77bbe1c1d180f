import FairLease.Text.Blank
import FairLease.Url.Parser

/-!
# Endpoints

A cluster is reached through a list of web addresses. The path of each is taken
as a directory under which the keys are found.
-/

namespace FairLease.Etcd

inductive EndpointError where
  | none
  | invalid (endpoint : String) (source : Url.UrlError)
  | unsupportedScheme (endpoint : String)
  deriving DecidableEq, Repr

namespace EndpointError

def kind : EndpointError -> String
  | none => "NoEndpoints"
  | invalid _ _ => "InvalidEndpoint"
  | unsupportedScheme _ => "UnsupportedScheme"

def message : EndpointError -> String
  | none => "no etcd endpoints configured"
  | invalid endpoint source =>
      "invalid etcd endpoint '" ++ endpoint ++ "': " ++ source.message
  | unsupportedScheme endpoint =>
      "etcd endpoint '" ++ endpoint ++ "' must use http or https"

end EndpointError

abbrev Endpoint : Type :=
  Url.WebUrl

/-- A path that does not end in a slash is given one. -/
def Endpoint.asDirectory (e : Endpoint) : Endpoint :=
  if e.path.getLast? = some '/' then e
  else { e with path := Url.normalizePath (e.path ++ ['/']) }

def Endpoint.parse (text : String) : Except EndpointError Endpoint :=
  match Url.parse (Text.trim text) with
  | .error source => .error (.invalid text source)
  | .ok (.other _) => .error (.unsupportedScheme text)
  | .ok (.web url) =>
      if url.scheme = "http" ∨ url.scheme = "https" then
        .ok (Endpoint.asDirectory url)
      else .error (.unsupportedScheme text)

def Endpoint.parseAll (texts : List String) :
    Except EndpointError (List Endpoint) :=
  if texts.isEmpty then .error .none else texts.mapM Endpoint.parse

/-!
## Keys
-/

def keysPath : List Char :=
  "v2/keys/".toList

/-- A key is a path of its own, so that its first slash is not doubled. -/
def relativeKey (key : String) : List Char :=
  match key.toList with
  | '/' :: rest => rest
  | cs => cs

def Endpoint.keyUrl (e : Endpoint) (key : String) : Endpoint :=
  { e with path := Url.normalizePath (e.path ++ keysPath ++ relativeKey key) }

/-- Parameters follow a query that an address already has. -/
def Endpoint.withQuery (e : Endpoint) (pairs : List (String × String)) :
    Endpoint :=
  let added := Url.formPairs pairs
  let query :=
    match e.query with
    | none => added
    | some [] => added
    | some old => if added.isEmpty then old else old ++ '&' :: added
  { e with query := if query.isEmpty then none else some query }

def Endpoint.target (e : Endpoint) : String :=
  String.ofList (e.path ++ match e.query with
    | none => []
    | some query => '?' :: query)

end FairLease.Etcd
