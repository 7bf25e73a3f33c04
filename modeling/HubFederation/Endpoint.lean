import HubFederation.Json.Record
import HubFederation.Port
import HubFederation.Text.Cut
import HubFederation.Text.Quoted

/-!
# Tunnel endpoints

An endpoint is one element of a tunnel's stack: a local port, a target, a unix
socket, an SSH hop or an opaque proxy. Its text is

    listen := ":" port
    target := host ":" port
    socket := "unix://" path
    hop    := "ssh://" [user "@"] address ["?" key "=" value ("&" key "=" value)*]
    proxy  := any other text with "://"

where an address ends in ":" and a port.

* `Endpoint.parse` reads a text, `Endpoint.text` writes one.
* `Endpoint.address` is what a peer dials to reach an endpoint.
-/
namespace HubFederation

/-- An SSH hop. Parameters are kept in key order, so that a hop has one text. -/
structure SshHop where
  user : Option String
  address : String
  params : SortedMap String String
  deriving DecidableEq

inductive Endpoint where
  /-- Listens on, or dials, a port of the local host. -/
  | listen (port : Port)
  | tcp (host : String) (port : Port)
  /-- A unix socket, by its absolute path. -/
  | unix (path : String)
  | ssh (hop : SshHop)
  /-- A proxy, carried as it is. -/
  | proxy (uri : String)
  deriving DecidableEq

/-- Why a text is no endpoint. Each cause holds the whole text.
mirrors `ParseError` -/
inductive EndpointError where
  | invalidPort (text : String)
  | relativeSocket (text : String)
  | missingAddress (text : String)
  | malformedQuery (text : String)
  deriving DecidableEq, Repr

/-- mirrors the display of `ParseError` -/
def EndpointError.message : EndpointError → String
  | .invalidPort s => "invalid port in endpoint " ++ Text.quoted s
  | .relativeSocket s => "unix socket path must be absolute: " ++ Text.quoted s
  | .missingAddress s => "missing address in endpoint " ++ Text.quoted s
  | .malformedQuery s => "malformed query in endpoint " ++ Text.quoted s

namespace SshHop

def scheme : List Char := ['s', 's', 'h', ':', '/', '/']

/-- The parameter that names the login key. -/
def identityFileParam : String := "identity_file"

/-- The parameter that names the hub whose tunnel is dialed. -/
def targetHubParam : String := "target_hub"

/-- A hop to the tunnel of `hub`, which listens at `address`.
mirrors `SshHop.to_hub` -/
def toHub (address hub : String) : SshHop :=
  ⟨none, address, (∅ : SortedMap String String).insert targetHubParam hub⟩

/-- mirrors `SshHop.target_hub` -/
def targetHub (h : SshHop) : Option String := h.params.get? targetHubParam

/-- mirrors `SshHop.identity_file` -/
def identityFile (h : SshHop) : Option String := h.params.get? identityFileParam

/-- The hop with a login user and the key it logs in with.
mirrors `SshHop.authenticate` -/
def authenticate (h : SshHop) (user identityFile : String) : SshHop :=
  { h with user := some user, params := h.params.insert identityFileParam identityFile }

def paramChars (p : String × String) : List Char := p.1.toList ++ '=' :: p.2.toList

/-- The parameters, a question mark before them and ampersands between them. -/
def queryChars : List (String × String) → List Char
  | [] => []
  | ps => '?' :: List.intercalate ['&'] (ps.map paramChars)

/-- mirrors `SshHop.fmt` -/
def chars (h : SshHop) : List Char :=
  scheme ++ (match h.user with | some u => u.toList ++ ['@'] | none => []) ++
    h.address.toList ++ queryChars h.params.entries

def text (h : SshHop) : String := String.ofList h.chars

/-- The parameters of a query; of equal keys the last counts. Empty pieces are skipped. -/
def readQuery (query : List Char) : Option (SortedMap String String) :=
  let pieces := (query.splitOn '&').filter (· ≠ [])
  (pieces.mapM fun piece => (Text.cutFirst '=' piece).map fun (k, v) =>
    (String.ofList k, String.ofList v)).map SortedMap.ofList

/-- Whether a port follows the last colon of an address. -/
def hasPort (address : List Char) : Bool :=
  match Text.cutLast ':' address with
  | some (_, port) => (Port.ofChars? port).isSome
  | none => false

/-- The hop that a text after the scheme names; `s` is the whole text.
mirrors `SshHop.from_str` after the scheme -/
def ofChars (s : String) (rest : List Char) : Except EndpointError SshHop :=
  let (authority, query) := match Text.cutFirst '?' rest with
    | some (authority, query) => (authority, query)
    | none => (rest, [])
  let (user, address) := match Text.cutLast '@' authority with
    | some (user, address) => (some (String.ofList user), address)
    | none => (none, authority)
  if address = [] then .error (.missingAddress s)
  else if !hasPort address then .error (.invalidPort s)
  else match readQuery query with
    | some params => .ok ⟨user, String.ofList address, params⟩
    | none => .error (.malformedQuery s)

/-- mirrors `SshHop.from_str` -/
def parse (s : String) : Except EndpointError SshHop :=
  match scheme.isPrefixOf? s.toList with
  | some rest => ofChars s rest
  | none => .error (.missingAddress s)

end SshHop

namespace Endpoint

def unixScheme : List Char := ['u', 'n', 'i', 'x', ':', '/', '/']

/-- What separates a scheme from the rest. -/
def schemeMark : List Char := [':', '/', '/']

/-- mirrors `Endpoint.is_unix` -/
def isUnix : Endpoint → Bool
  | unix _ => true
  | _ => false

/-- mirrors `Endpoint.as_ssh` -/
def isSsh : Endpoint → Bool
  | ssh _ => true
  | _ => false

/-- mirrors `Endpoint.fmt` -/
def chars : Endpoint → List Char
  | listen port => ':' :: port.chars
  | tcp host port => host.toList ++ ':' :: port.chars
  | unix path => unixScheme ++ path.toList
  | ssh hop => hop.chars
  | proxy uri => uri.toList

def text (e : Endpoint) : String := String.ofList e.chars

/-- The host of a proxy: what follows the scheme and the user, up to a slash or a query. -/
def proxyHost (uri : List Char) : Option (List Char) :=
  (Text.cutAt schemeMark uri).bind fun (_, rest) =>
    let authority := rest.takeWhile fun c => c ≠ '/' && c ≠ '?'
    let host := match Text.cutLast '@' authority with
      | some (_, host) => host
      | none => authority
    if host = [] then none else some host

/-- What a peer dials to reach the endpoint, if it can be dialed.
mirrors `Endpoint.address` -/
def address : Endpoint → Option String
  | tcp host port => some (String.ofList (host.toList ++ ':' :: port.chars))
  | ssh hop => some hop.address
  | proxy uri => (proxyHost uri.toList).map String.ofList
  | listen _ | unix _ => none

/-- A local port or a target.
mirrors the end of `Endpoint.from_str` -/
def ofHostPort (s : String) : Except EndpointError Endpoint :=
  match Text.cutLast ':' s.toList with
  | none => .error (.invalidPort s)
  | some (host, port) =>
    match Port.ofChars? port with
    | none => .error (.invalidPort s)
    | some port => .ok (if host = [] then listen port else tcp (String.ofList host) port)

/-- mirrors `Endpoint.from_str` -/
def parse (s : String) : Except EndpointError Endpoint :=
  match unixScheme.isPrefixOf? s.toList with
  | some path =>
    if path.head? = some '/' then .ok (unix (String.ofList path)) else .error (.relativeSocket s)
  | none =>
    match SshHop.scheme.isPrefixOf? s.toList with
    | some rest => (SshHop.ofChars s rest).map ssh
    | none =>
      if (Text.cutAt schemeMark s.toList).isSome then .ok (proxy s) else ofHostPort s

/-- mirrors `Endpoint.serialize` -/
def toJson (e : Endpoint) : Json := .str e.text

/-- mirrors `Endpoint.deserialize` -/
def ofJson? (j : Json) : Option Endpoint := j.string?.bind fun s => (parse s).toOption

end Endpoint

end HubFederation
