import HubFederation.Chain.Bound
import HubFederation.PortList
import HubFederation.Resources
import HubFederation.RouteSpec
import HubFederation.TunnelPort

/-!
# Rendering

The ConfigMaps that make up a tunnel. Their names tell what they are for:

    <route>-tunnel-<export port>-<bind port>    the chains that a hub runs
    <route>-allows-<export port>-<bind port>    what a hub grants its peers
    <peer>-authorized                           the key that a peer logs in with
    <route>-service                             the service on the importing hub
-/
namespace HubFederation.Render

/-- The domain after the user of an authorized key. -/
def keyDomain : String := "ferryproxy.io"

def portsText (t : Tunnel) : String := t.exportPort.text ++ "-" ++ t.bindPort.text

/-- The chains that a hub runs.
mirrors `render.rules` -/
def rules (owner : Labels) (t : Tunnel) (chains : List Chain) : ConfigMap :=
  .rendered (t.route ++ "-tunnel-" ++ portsText t) (owner.withConfig .rules)
    [(DataKey.rules, (Chain.listToJson chains).compact)]

/-- What a hub grants each peer.
mirrors `render.allows` -/
def allows (owner : Labels) (t : Tunnel) (inbound : SortedMap String AllowList) : ConfigMap :=
  .rendered (t.route ++ "-allows-" ++ portsText t) (owner.withConfig .allows)
    [(DataKey.allows, (Json.obj (inbound.entries.map fun (peer, l) => (peer, l.toJson))).compact)]

/-- The key that a peer logs in with.
mirrors `render.authorized_keys` -/
def authorizedKey (owner : Labels) (peer key : String) : ConfigMap :=
  .rendered (peer ++ "-authorized") (owner.withConfig .authorized)
    [(DataKey.user, peer), (DataKey.authorizedKeys, key ++ " " ++ peer ++ "@" ++ keyDomain)]

/-- The service that a route publishes on the importing hub.
mirrors `render.service` -/
def service (owner : Labels) (route : String) (spec : RouteSpec) (ports : List TunnelPort) :
    ConfigMap :=
  let source := spec.source.service
  let target := spec.target.service
  let labels := (((owner.withConfig .service).insert Labels.exportedFromNamespace source.ns).insert
    Labels.exportedFromName source.name).insert Labels.exportedFromPorts
      (Port.listText (ports.map (·.port)))
  .rendered (route ++ "-service") labels
    [(DataKey.exportHubName, spec.source.hub), (DataKey.exportServiceNamespace, source.ns),
      (DataKey.exportServiceName, source.name), (DataKey.importServiceNamespace, target.ns),
      (DataKey.importServiceName, target.name), (DataKey.ports, (TunnelPort.listToJson ports).compact)]

/-- What one hub of a tunnel needs: its chains, its grants, and the key of each peer
that has one.
mirrors one hub of `render.bound` -/
def hubConfigMaps (owner : Labels) (t : Tunnel) (authorized : String → Option String) (b : Bound) :
    List ConfigMap :=
  (if b.outbound.isEmpty then [] else [rules owner t b.outbound]) ++
    if b.inbound.isEmpty then []
    else allows owner t b.inbound ::
      b.inbound.keys.filterMap fun peer => (authorized peer).map (authorizedKey owner peer)

/-- Adds what every hub of a tunnel needs.
mirrors `render.bound` -/
def addBounds (owner : Labels) (t : Tunnel) (authorized : String → Option String) (bounds : Bounds)
    (r : Resources) : Resources :=
  bounds.entries.foldl
    (fun r (hub, b) => (hubConfigMaps owner t authorized b).foldl (·.insert hub ·) r) r

end HubFederation.Render
