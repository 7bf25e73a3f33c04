import HubFederation.Text.Form

/-!
# Requests to an API server

What is asked of the API server of a cluster: a verb, the path of what it is about, and
a query. Names are put into paths as they are, so a name can make a request impossible,
and one with a `?` or `#` in it ends the path early.

* `toPath?` makes a request, `toNamed?` one about a named object.
-/
namespace HubFederation

/-- A request as it arrives. -/
structure ApiRequest where
  verb : String
  path : String
  query : List (String × String)
  deriving DecidableEq, Repr

namespace ApiRequest

/-- Whether a character can be sent at all: no blank, control or angle bracket. -/
def isSendable (c : Char) : Bool :=
  0x21 ≤ c.toNat && c.toNat != 0x7f && c != '<' && c != '>'

/-- Characters that may stand in a path. -/
def isPathChar (c : Char) : Bool := isSendable c && c != '?' && c != '#' && c != '`'

/-- Characters that may stand in a query. -/
def isQueryChar (c : Char) : Bool := isSendable c && c != '"' && c != '#'

/-- The request for a path, with a query behind it. What follows a `?` in the path belongs
to the query, and what follows a `#` is not sent. -/
def toPath? (verb path : String) (query : List (String × String)) : Option ApiRequest :=
  let text := if query.isEmpty then path.toList else path.toList ++ ['?']
  let request (stem : List Char) (query : List (String × String)) : Option ApiRequest :=
    some ⟨verb, String.ofList stem, query⟩
  match text.span isPathChar with
  | (stem, '?' :: rest) => match rest.span isQueryChar with
    | (own, []) => request stem (Text.parameters own ++ query)
    | (own, '#' :: _) => request stem (Text.parameters own)
    | _ => none
  | (stem, '#' :: _) => request stem []
  | (stem, []) => request stem query
  | _ => none

/-- The request for an object of a collection, or for a part of it. -/
def toNamed? (verb collection name part : String) (query : List (String × String)) :
    Option ApiRequest :=
  if name = "" then none else toPath? verb (collection ++ "/" ++ name ++ part) query

/-- Names the controller as the owner of what it writes. -/
def fieldManager : String × String := ("fieldManager", "ferry-controller")

def namespacePath (ns : String) : String := "/api/v1/namespaces/" ++ ns

def getNamespace? (ns : String) : Option ApiRequest :=
  toNamed? "GET" "/api/v1/namespaces" ns "" []

/-- Lists what a label selector picks out. -/
def list? (ns kind selector : String) : Option ApiRequest :=
  toPath? "GET" (namespacePath ns ++ "/" ++ kind) [("labelSelector", selector)]

end ApiRequest

end HubFederation
