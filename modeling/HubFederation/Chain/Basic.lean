import HubFederation.Endpoint
import HubFederation.ServiceRef
import HubFederation.Way

/-!
# Tunnel chains

A chain is what one hub runs to carry a tunnel one step: a stack of endpoints that
it binds, and a stack that it dials for each connection. For two neighbours on a
way the side that cannot be dialed runs the chain:

* if the exporting side can be dialed, the importing hub listens and dials it;
* otherwise the exporting hub dials the importing side and has it listen.

Hubs in the middle of a way hand traffic from one chain to the other over a unix
socket. `Tunnel.chains` holds one chain per neighbouring pair.
-/
namespace HubFederation

structure Chain where
  bind : List Endpoint
  proxy : List Endpoint
  deriving DecidableEq

/-- Chains by the hub that runs them. -/
abbrev Chains := SortedMap String (List Chain)

/-- A tunnel for one port of an exported service. -/
structure Tunnel where
  /-- The name of the route. -/
  route : String
  /-- The exported service. -/
  service : ServiceRef
  exportPort : Port
  bindPort : Port
  /-- The key that every SSH hop logs in with. -/
  identityFile : String
  deriving DecidableEq, Repr

/-- Why a way cannot be turned into chains. -/
inductive ChainError where
  | unreachable (exporting importing : String)
  | shortWay (way : List String)
  | endpoint (cause : EndpointError)
  deriving DecidableEq, Repr

/-- mirrors the display of `ChainError` -/
def ChainError.message : ChainError → String
  | .unreachable e i => "both export " ++ e ++ " and import " ++ i ++ " are unreachable"
  | .shortWay way => "a way needs at least two hubs, got " ++ Text.quotedList way
  | .endpoint cause => "invalid proxy endpoint: " ++ cause.message

namespace Chain

/-! ## JSON -/

def toJson (c : Chain) : Json :=
  .obj [("bind", .arr (c.bind.map Endpoint.toJson)), ("proxy", .arr (c.proxy.map Endpoint.toJson))]

def ofJson? (j : Json) : Option Chain := do
  let r ← Json.Record.ofJson? ["bind", "proxy"] j
  let stack := Json.list? Endpoint.ofJson?
  return ⟨← r.required "bind" stack, ← r.required "proxy" stack⟩

def listToJson (cs : List Chain) : Json := .arr (cs.map toJson)

def listOfJson? : Json → Option (List Chain) := Json.list? ofJson?

end Chain

namespace Chains

/-- Adds a chain behind those that its hub already runs. -/
def add (cs : Chains) (hub : String) (c : Chain) : Chains :=
  cs.alter hub fun present => present.getD [] ++ [c]

/-- Chains with the hubs that run them, in order. -/
def ofList (cs : List (String × Chain)) : Chains :=
  cs.foldl (fun acc (hub, c) => acc.add hub c) ∅

/-- The chain of a hub that runs exactly one.
mirrors `chain.single` -/
def single? (cs : Chains) (hub : String) : Option Chain :=
  match cs.get? hub with
  | some [c] => some c
  | _ => none

end Chains

namespace Tunnel

/-- The exported service port.
mirrors `Tunnel.origin` -/
def origin (t : Tunnel) : Endpoint := .tcp t.service.host t.exportPort

/-- The socket over which a hub in the middle of the way hands traffic on.
mirrors `Tunnel.socket` -/
def socket (t : Tunnel) : Endpoint :=
  .unix ("/dev/shm/" ++ t.route ++ "-" ++ t.exportPort.text ++ "-" ++ t.bindPort.text ++
    "-tunnel.socks")

/-- A hop to the tunnel of a hub.
mirrors `chain.hub_hop` -/
def hubHop (hub : String) (gateway : Gateway) : Endpoint := .ssh (.toHub gateway.address hub)

/-- The endpoint of a relay as `runner` dials it.
mirrors one hop of `chain.expand` -/
def relay (gateway : Gateways) (runner : String) : Hop → Except ChainError Endpoint
  | .hub hub => .ok (hubHop hub (gateway hub runner))
  | .proxy uri => (Endpoint.parse uri).mapError .endpoint

/-- mirrors `chain.expand` -/
def relays (gateway : Gateways) (runner : String) (hops : List Hop) :
    Except ChainError (List Endpoint) :=
  hops.mapM (relay gateway runner)

/-- The endpoints through which `runner` dials `target`: the tunnel of `target`, the
relays on its side and those on the side of `runner`.
mirrors the stack that `chain.raw` dials with -/
def dial (gateway : Gateways) (runner target : String) : Except ChainError (List Endpoint) := do
  let there := gateway target runner
  let here := gateway runner target
  let reception ← relays gateway runner there.receptionProxy
  let navigation ← relays gateway runner here.navigationProxy
  return hubHop target there :: (reception ++ navigation)

/-- The chain that joins two neighbours, and the hub that runs it. `bind` and `proxy`
are the local ends.
mirrors one pair of `chain.raw` -/
def link (gateway : Gateways) (bind proxy : Endpoint) (exporting importing : String) :
    Except ChainError (String × Chain) :=
  if (gateway exporting importing).reachable then
    (dial gateway importing exporting).map fun hops => (importing, ⟨[bind], proxy :: hops⟩)
  else if (gateway importing exporting).reachable then
    (dial gateway exporting importing).map fun hops => (exporting, ⟨bind :: hops, [proxy]⟩)
  else .error (.unreachable exporting importing)

/-- The chains along a way of which `proxy` is the near end.
mirrors the loop of `chain.raw` -/
def links (t : Tunnel) (gateway : Gateways) (proxy : Endpoint) :
    List String → Except ChainError (List (String × Chain))
  | exporting :: importing :: rest => do
    let bind := if rest.isEmpty then .listen t.bindPort else t.socket
    let l ← link gateway bind proxy exporting importing
    let ls ← links t gateway t.socket (importing :: rest)
    return l :: ls
  | _ => .ok []

/-- One chain for each pair of neighbours, before any are merged.
mirrors `chain.raw` -/
def chains (t : Tunnel) (gateway : Gateways) (way : List String) : Except ChainError Chains :=
  if way.length < 2 then .error (.shortWay way)
  else (links t gateway t.origin way).map Chains.ofList

end Tunnel

end HubFederation
