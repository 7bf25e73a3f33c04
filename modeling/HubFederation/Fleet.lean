import HubFederation.Gateway
import HubFederation.PortPools
import HubFederation.Recovery
import HubFederation.Resources

/-!
# Hubs as a controller sees them

A `Fleet` holds what can be asked of every hub: whether it is ready, its gateway, its
key, its services, its bind ports and the ConfigMaps on it, and which calls fail.
A failing call changes nothing.

* `mem_configMapsOf`: what is found on a hub is what is kept there.
-/
namespace HubFederation

/-- mirrors the state of `FakeHubs` -/
structure Fleet where
  ready : SortedSet String
  graph : Graph
  /-- The keys that hubs log in with. -/
  keys : SortedMap String String
  /-- Services by hub, namespace and name. -/
  services : SortedMap (String × String × String) Service
  ports : PortPools
  /-- The ConfigMaps on the hubs. -/
  configMaps : Resources
  /-- The hubs on which every call fails. -/
  failingHubs : SortedSet String
  /-- The hubs whose ConfigMaps cannot be listed. -/
  failingLists : SortedSet String
  /-- The ConfigMaps, by hub and name, that can be neither applied nor deleted. -/
  failingNames : SortedSet (String × String)
  deriving DecidableEq

namespace Fleet

/-- No hubs; every importing hub will have a pool like `fresh`. -/
def ofPool (fresh : PortPool) : Fleet := ⟨∅, .empty, ∅, ∅, .ofPool fresh, ∅, ∅, ∅, ∅⟩

/-- mirrors `Hubs.hub_ready` -/
def isReady (f : Fleet) (hub : String) : Bool := f.ready.contains hub

/-- mirrors `Hubs.gateway` -/
def gateway (f : Fleet) : Gateways := f.graph.gateway

/-- mirrors `Hubs.authorized` -/
def key? (f : Fleet) (hub : String) : Option String := f.keys.get? hub

/-- mirrors `Hubs.get_service` -/
def service? (f : Fleet) (hub : String) (ref : ServiceRef) : Option Service :=
  f.services.get? (hub, ref.ns, ref.name)

/-- Replaces everything that a hub declares. -/
def setHub (f : Fleet) (hub : String) (gateway : Gateway) (overrides : SortedMap String Gateway)
    (key : Option String) (ready : Bool) : Fleet :=
  { f with
    ready := if ready then f.ready.add hub else f.ready.erase hub
    graph := ⟨f.graph.gateways.insert hub gateway, f.graph.overrides.insert hub overrides⟩
    keys := match key with
      | some k => f.keys.insert hub k
      | none => f.keys.erase hub }

/-- Whether listing the ConfigMaps of a hub fails. -/
def listFails (f : Fleet) (hub : String) : Bool :=
  f.failingHubs.contains hub || f.failingLists.contains hub

/-- Whether applying or deleting a ConfigMap fails. -/
def writeFails (f : Fleet) (hub name : String) : Bool :=
  f.failingHubs.contains hub || f.failingNames.contains (hub, name)

/-- The ConfigMaps of a hub, by name. -/
def configMapsOf (f : Fleet) (hub : String) : List ConfigMap := (f.configMaps.of hub).values

/-- The ConfigMaps of a hub that have all of `labels`. -/
def list (f : Fleet) (hub : String) (labels : Labels) : List ConfigMap :=
  (f.configMapsOf hub).filter fun cm => labels.selects cm.labelSet

/-- mirrors `FakeHubs.put_config_map` -/
def put (f : Fleet) (hub : String) (cm : ConfigMap) : Fleet :=
  { f with configMaps := f.configMaps.insert hub cm }

def delete (f : Fleet) (hub name : String) : Fleet :=
  { f with configMaps := f.configMaps.remove hub name }

theorem mem_configMapsOf {f : Fleet} {hub : String} {cm : ConfigMap} :
    cm ∈ f.configMapsOf hub ↔ f.configMaps.get? hub cm.key = some cm :=
  Resources.mem_values_of

end Fleet

end HubFederation
