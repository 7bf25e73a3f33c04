import HubFederation.Gateway
import HubFederation.Json.Record

/-!
# Declared hubs

A hub declares its gateway, and other ones for single peers. A declared relay names
a hub or a proxy; one that names both counts as the hub, and one that names neither
counts as none.

* `HubSpec.gateway` is what a peer gets to see.
-/
namespace HubFederation

/-- A relay as it is declared.
mirrors `HubSpecGatewayProxy` -/
structure ProxySpec where
  hub : Option String
  proxy : Option String
  deriving DecidableEq, Repr

/-- mirrors `HubSpecGateway` -/
structure GatewaySpec where
  reachable : Bool
  address : String
  navigationWay : List String
  receptionWay : List String
  navigationProxy : List ProxySpec
  receptionProxy : List ProxySpec
  deriving DecidableEq, Repr

structure HubSpec where
  default : GatewaySpec
  /-- What single peers see instead. -/
  overrides : SortedMap String GatewaySpec
  deriving DecidableEq

namespace ProxySpec

/-- mirrors one entry of `gateway.hops` -/
def hop? (p : ProxySpec) : Option Hop :=
  match p.hub.filter (· ≠ ""), p.proxy.filter (· ≠ "") with
  | some hub, _ => some (.hub hub)
  | none, some uri => some (.proxy uri)
  | none, none => none

def toJson (p : ProxySpec) : Json :=
  .present [("hubName", p.hub.map .str), ("proxy", p.proxy.map .str)]

def ofJson? (j : Json) : Option ProxySpec := do
  let r ← Json.Record.ofJson? ["hubName", "proxy"] j
  return ⟨← r.optional "hubName" Json.string?, ← r.optional "proxy" Json.string?⟩

end ProxySpec

namespace GatewaySpec

def empty : GatewaySpec := ⟨false, "", [], [], [], []⟩

instance : Inhabited GatewaySpec := ⟨empty⟩

/-- mirrors `gateway.from_spec` -/
def gateway (g : GatewaySpec) : Gateway where
  reachable := g.reachable
  address := g.address
  navigationWay := g.navigationWay
  receptionWay := g.receptionWay
  navigationProxy := g.navigationProxy.filterMap (·.hop?)
  receptionProxy := g.receptionProxy.filterMap (·.hop?)

def stepToJson (hub : String) : Json := .obj [("hubName", .str hub)]

def stepOfJson? (j : Json) : Option String := do
  let r ← Json.Record.ofJson? ["hubName"] j
  r.required "hubName" Json.string?

def toJson (g : GatewaySpec) : Json :=
  let items {α : Type} (f : α → Json) (xs : List α) : Option Json :=
    if xs.isEmpty then none else some (.arr (xs.map f))
  .present [("reachable", some (.bool g.reachable)), ("address", some (.str g.address)),
    ("navigationWay", items stepToJson g.navigationWay),
    ("receptionWay", items stepToJson g.receptionWay),
    ("navigationProxy", items ProxySpec.toJson g.navigationProxy),
    ("receptionProxy", items ProxySpec.toJson g.receptionProxy)]

def ofJson? (j : Json) : Option GatewaySpec := do
  let r ← Json.Record.ofJson? ["reachable", "address", "navigationWay", "receptionWay",
    "navigationProxy", "receptionProxy"] j
  let steps := Json.list? stepOfJson?
  let proxies := Json.list? ProxySpec.ofJson?
  return {
    reachable := ← r.withDefault "reachable" false Json.bool?
    address := ← r.withDefault "address" "" Json.string?
    navigationWay := ← r.withDefault "navigationWay" [] steps
    receptionWay := ← r.withDefault "receptionWay" [] steps
    navigationProxy := ← r.withDefault "navigationProxy" [] proxies
    receptionProxy := ← r.withDefault "receptionProxy" [] proxies }

end GatewaySpec

namespace HubSpec

/-- The declaration that holds for a peer.
mirrors `HubSpec.gateway_for` -/
def seenBy (s : HubSpec) (peer : String) : GatewaySpec := (s.overrides.get? peer).getD s.default

/-- The gateway that a peer sees. -/
def gateway (s : HubSpec) (peer : String) : Gateway := (s.seenBy peer).gateway

def toJson (s : HubSpec) : Json :=
  .present [("gateway", some s.default.toJson),
    ("override", if s.overrides.isEmpty then none
      else some (.obj (s.overrides.entries.map fun (k, g) => (k, g.toJson))))]

def ofJson? (j : Json) : Option HubSpec := do
  let r ← Json.Record.ofJson? ["gateway", "override"] j
  return ⟨← r.withDefault "gateway" .empty GatewaySpec.ofJson?,
    ← r.withDefault "override" ∅ (Json.map? GatewaySpec.ofJson?)⟩

end HubSpec

end HubFederation
