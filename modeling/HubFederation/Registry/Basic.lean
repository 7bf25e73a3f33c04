import HubFederation.HubSpec
import HubFederation.PortPools
import HubFederation.Recovery

/-!
# The registry of hubs

The registry knows what every hub declares and how it is reached: its specification,
its kubeconfig and the key it logs in with. When a hub gets a kubeconfig, or another
one, an `Init` asks for a client to be built. Every init has a generation of its own,
and what comes of an init that is no longer current changes nothing.

* `applyHub`, `deleteHub`, `applySecret`, `deleteSecret` are what the control cluster
  tells.
* `install` takes a client in, `serviceEvent?` what it says about services.
-/
namespace HubFederation

structure ClusterInfo where
  /-- Where hubs, routes and secrets are. -/
  ns : String
  /-- Where the tunnel runs on every hub. -/
  tunnelNs : String
  portStart : Port
  portCount : Port
  deriving DecidableEq, Repr

/-- Asks for the client of a hub. -/
structure Init where
  hub : String
  generation : Nat
  kubeconfig : String
  deriving DecidableEq, Repr

/-- Services by namespace and name. -/
abbrev ServiceMap := SortedMap (String × String) Service

structure HubState where
  spec : Option HubSpec
  kubeconfig : Option String
  /-- The key that the hub logs in with. -/
  key : Option String
  generation : Nat
  /-- The kubeconfig that the client was built from, if there is a client. -/
  client : Option String
  services : ServiceMap
  /-- The services seen since a new listing began. -/
  relisting : Option ServiceMap
  deriving DecidableEq

/-- Who is told of changes. -/
inductive Listener where
  /-- Somebody who is told whenever a hub changes. -/
  | subscriber (id : String)
  /-- The task of a pair, which is told when services of its exporting hub change. -/
  | callback (exporting importing : String)
  deriving DecidableEq, Repr

structure Registry where
  info : ClusterInfo
  hubs : SortedMap String HubState
  /-- Bind ports; they outlive their hubs. -/
  ports : PortPools
  callbacks : SortedSet (String × String)
  subscribers : List String
  /-- How many generations there have been. -/
  generations : Nat
  /-- The inits that nobody has taken yet, the oldest first. -/
  inits : List Init
  /-- Everyone who was told of a change, the latest last. -/
  fired : List Listener
  deriving DecidableEq

/-- What a client says about the services of a hub.
mirrors the events that `Registry.service_event` takes -/
inductive ServiceEvent where
  /-- A new listing begins. -/
  | relistBegun
  | relisted (s : Service)
  | relistDone
  | changed (s : Service)
  | removed (s : Service)
  deriving DecidableEq

namespace HubState

def empty : HubState := ⟨none, none, none, 0, none, ∅, none⟩

/-- Drops the client, and all that came from it.
mirrors `HubState.reset` -/
def reset (h : HubState) (generation : Nat) : HubState :=
  { h with generation, client := none, services := ∅, relisting := none }

def isReady (h : HubState) : Bool := h.spec.isSome && h.client.isSome

/-- Takes in what a client says about a service.
mirrors the match in `Registry.service_event` -/
def onService (h : HubState) : ServiceEvent → HubState
  | .relistBegun => { h with relisting := some ∅ }
  | .relisted s => { h with relisting := h.relisting.map (·.insert s.id s) }
  | .relistDone => { h with services := h.relisting.getD ∅, relisting := none }
  | .changed s => { h with services := h.services.insert s.id s }
  | .removed s => { h with services := h.services.erase s.id }

end HubState

namespace Registry

/-- mirrors `Registry.shared` -/
def ofInfo (info : ClusterInfo) : Registry :=
  ⟨info, ∅, .ofPool (.ofCount info.portStart info.portCount), ∅, [], 0, [], []⟩

/-! ## Telling others -/

/-- mirrors `Registry.subscribe` -/
def subscribe (r : Registry) (id : String) : Registry :=
  { r with subscribers := r.subscribers.filter (· ≠ id) ++ [id] }

def unsubscribe (r : Registry) (id : String) : Registry :=
  { r with subscribers := r.subscribers.filter (· ≠ id) }

/-- mirrors `Hubs.register_service_callback` -/
def registerCallback (r : Registry) (pair : String × String) : Registry :=
  { r with callbacks := r.callbacks.add pair }

/-- mirrors `Hubs.unregister_service_callback` -/
def unregisterCallback (r : Registry) (pair : String × String) : Registry :=
  { r with callbacks := r.callbacks.erase pair }

/-- Tells everyone who asked about hubs.
mirrors `Registry.notify` -/
def notify (r : Registry) : Registry :=
  { r with fired := r.fired ++ r.subscribers.map .subscriber }

/-- Tells the pairs that export from a hub.
mirrors `Registry.notify_services` -/
def notifyServices (r : Registry) (hub : String) : Registry :=
  let pairs := r.callbacks.keys.filter fun pair => pair.1 = hub
  { r with fired := r.fired ++ pairs.map fun pair => .callback pair.1 pair.2 }

/-! ## What the control cluster tells -/

def hub (r : Registry) (name : String) : HubState := r.hubs.getD name .empty

def setHub (r : Registry) (name : String) (h : HubState) : Registry :=
  { r with hubs := r.hubs.insert name h }

/-- Drops the client of a hub, and asks for a new one if the hub can be reached.
mirrors `Registry.reinit` -/
def reinit (r : Registry) (name : String) : Registry :=
  let generation := r.generations + 1
  let r := { r with generations := generation }
  match r.hubs.get? name with
  | none => r
  | some h =>
    let r := r.setHub name (h.reset generation)
    match h.spec, h.kubeconfig with
    | some _, some kubeconfig => { r with inits := r.inits ++ [⟨name, generation, kubeconfig⟩] }
    | _, _ => r

/-- Takes in what a hub declares.
mirrors `Registry.apply` of a hub -/
def applyHub (r : Registry) (name : String) (spec : HubSpec) : Registry :=
  let h := r.hub name
  if h.spec = some spec then r
  else
    let changed := r.setHub name { h with spec := some spec }
    (if h.spec.isNone then changed.reinit name else changed).notify

/-- Forgets a hub, but for its credentials.
mirrors `Registry.delete` of a hub -/
def deleteHub (r : Registry) (name : String) : Registry :=
  match r.hubs.get? name with
  | none => r
  | some h =>
    let hubs :=
      if h.kubeconfig.isSome || h.key.isSome then
        r.hubs.insert name { HubState.empty with kubeconfig := h.kubeconfig, key := h.key }
      else r.hubs.erase name
    ({ r with hubs }.notifyServices name).notify

/-- The text under a key of a secret; one that is empty or no text counts as missing.
mirrors the reads in `Registry.apply` of a secret -/
def secretText? (data : SortedMap String ByteArray) (key : String) : Option String :=
  ((data.get? key).bind String.fromUTF8?).filter (· ≠ "")

/-- Takes in the credentials of a hub. A secret without a kubeconfig says nothing.
mirrors `Registry.apply` of a secret -/
def applySecret (r : Registry) (name : String) (data : SortedMap String ByteArray) : Registry :=
  match secretText? data "kubeconfig" with
  | none => r
  | some kubeconfig =>
    let key := (secretText? data "authorized").map fun s =>
      String.ofList (Text.trim s.toList)
    let h := r.hub name
    if h.kubeconfig = some kubeconfig then
      if h.key = key then r else (r.setHub name { h with key }).notify
    else
      ((r.setHub name { h with key, kubeconfig := some kubeconfig }).reinit name).notify

/-- Forgets the credentials of a hub.
mirrors `Registry.delete` of a secret -/
def deleteSecret (r : Registry) (name : String) : Registry :=
  match r.hubs.get? name with
  | none => r
  | some h =>
    (((r.setHub name { h with kubeconfig := none, key := none }).reinit name).notifyServices
      name).notify

/-! ## What clients tell -/

/-- Whether an init of that generation is still what the hub waits for.
mirrors `Registry.is_current` -/
def isCurrent (r : Registry) (name : String) (generation : Nat) : Bool :=
  match r.hubs.get? name with
  | some h => h.generation = generation && h.spec.isSome
  | none => false

/-- Registers bindings that were found on a hub; those in conflict are left out.
mirrors the loop of `Registry.install` -/
def recoverPorts (ports : PortPools) (name : String) (found : Recovery.Bindings) : PortPools :=
  found.foldl (fun ps (peer, port) => match ps.register name peer port with
    | .ok ps => ps
    | .error _ => ps) ports

/-- Takes in the client of a hub, and the bindings that it found.
mirrors `Registry.install` -/
def install (r : Registry) (init : Init) (found : Recovery.Bindings) : Registry :=
  let r := { r with ports := recoverPorts r.ports init.hub found }
  { r with hubs := r.hubs.modify init.hub fun h => { h with client := some init.kubeconfig } }.notify

/-- Takes in what the client of a generation says about a service; `none` if that client
is not the hub's any more.
mirrors `Registry.service_event` -/
def serviceEvent? (r : Registry) (name : String) (generation : Nat) (e : ServiceEvent) :
    Option Registry :=
  match r.hubs.get? name with
  | none => none
  | some h =>
    if h.generation ≠ generation then none
    else
      let r := r.setHub name (h.onService e)
      match e with
      | .relistBegun | .relisted _ => some r
      | _ => some (r.notifyServices name)

/-! ## Questions -/

/-- mirrors `Hubs.hub_ready` -/
def isReady (r : Registry) (name : String) : Bool := (r.hub name).isReady

/-- The gateway that a hub shows to a peer.
mirrors `Hubs.gateway` -/
def gateway (r : Registry) : Gateways := fun name peer =>
  ((r.hub name).spec.map (·.gateway peer)).getD .unknown

/-- mirrors `Hubs.authorized` -/
def key? (r : Registry) (name : String) : Option String := (r.hub name).key

/-- mirrors `Hubs.get_service` -/
def service? (r : Registry) (name : String) (id : String × String) : Option Service :=
  (r.hub name).services.get? id

end Registry

end HubFederation
