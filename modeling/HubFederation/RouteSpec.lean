import HubFederation.Json.Record
import HubFederation.ServiceRef

/-!
# Routes

A route publishes a service of one hub as a service of another hub.
-/
namespace HubFederation

/-- A service of a hub, at one end of a route.
mirrors `RouteSpecRule` -/
structure RouteEnd where
  hub : String
  service : ServiceRef
  deriving DecidableEq, Repr

structure RouteSpec where
  /-- The service that is published. -/
  source : RouteEnd
  /-- What it is published as. -/
  target : RouteEnd
  deriving DecidableEq, Repr

namespace RouteEnd

/-- mirrors `RouteSpecRule.fmt` -/
def text (e : RouteEnd) : String := e.hub ++ "/" ++ e.service.ns ++ "/" ++ e.service.name

def serviceToJson (s : ServiceRef) : Json := .obj [("namespace", .str s.ns), ("name", .str s.name)]

def serviceOfJson? (j : Json) : Option ServiceRef := do
  let r ← Json.Record.ofJson? ["namespace", "name"] j
  return ⟨← r.required "namespace" Json.string?, ← r.required "name" Json.string?⟩

def toJson (e : RouteEnd) : Json :=
  .obj [("hubName", .str e.hub), ("service", serviceToJson e.service)]

def ofJson? (j : Json) : Option RouteEnd := do
  let r ← Json.Record.ofJson? ["hubName", "service"] j
  return ⟨← r.withDefault "hubName" "" Json.string?, ← r.required "service" serviceOfJson?⟩

end RouteEnd

namespace RouteSpec

/-- Whether the route joins two distinct hubs.
mirrors `RouteSpec.is_valid` -/
def isValid (s : RouteSpec) : Bool :=
  s.source.hub ≠ "" && s.target.hub ≠ "" && s.source.hub ≠ s.target.hub

/-- The hubs that the route joins: the exporting one, then the importing one. -/
def pair (s : RouteSpec) : String × String := (s.source.hub, s.target.hub)

def toJson (s : RouteSpec) : Json :=
  .obj [("export", s.source.toJson), ("import", s.target.toJson)]

def ofJson? (j : Json) : Option RouteSpec := do
  let r ← Json.Record.ofJson? ["export", "import"] j
  return ⟨← r.required "export" RouteEnd.ofJson?, ← r.required "import" RouteEnd.ofJson?⟩

end RouteSpec

end HubFederation
