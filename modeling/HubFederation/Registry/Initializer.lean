import HubFederation.Registry.Request

/-!
# Building clients

The initializer takes inits and builds the clients that they ask for, several at a time.
A hub whose client cannot be built is tried again after a pause, for as long as the init
is current.

* `take`, `succeed`, `fail` and `retry` are its steps.
* `connect` is what building a client asks of a hub.
-/
namespace HubFederation

/-- What a hub's API server answers while a client is built. -/
structure HubApi where
  namespaceStatus : Nat
  servicesStatus : Nat
  configMapsStatus : Nat
  services : List Service
  configMaps : List ConfigMap

/-- The registry, and the inits that are being worked on.
mirrors `Initializer` -/
structure HubControl where
  registry : Registry
  /-- The inits whose clients are being built. -/
  connecting : List Init
  /-- The inits that failed and will be tried again. -/
  backingOff : List Init

namespace HubApi

/-- The bindings that the answers contain; what cannot be read is left out.
mirrors the peers that `registry.connect` collects -/
def bindings (api : HubApi) : Recovery.Bindings :=
  (api.services.map Recovery.ofService ++ api.configMaps.map Recovery.ofConfigMap).flatMap
    fun found => match found with
      | .ok bs => bs
      | .error _ => []

/-- The selector of the ConfigMaps that record bindings. -/
def bindingSelector : String := Labels.configKey ++ "=" ++ ConfigKind.service.text

/-- Makes requests in order until one cannot be made or is refused. Gives those that were
made, and whether all were granted. -/
def ask : List (Option ApiRequest × Nat) → List ApiRequest × Bool
  | [] => ([], true)
  | (none, _) :: _ => ([], false)
  | (some request, status) :: rest =>
    if status = 200 then
      let (made, granted) := ask rest
      (request :: made, granted)
    else ([request], false)

/-- Asks for the tunnel namespace, its tunnel Services and its ConfigMaps, in this order.
Gives the requests made, and the bindings if all went well.
mirrors `registry.connect` -/
def connect (api : HubApi) (ns : String) : List ApiRequest × Option Recovery.Bindings :=
  let (made, granted) := ask [(ApiRequest.getNamespace? ns, api.namespaceStatus),
    (ApiRequest.list? ns "services" Labels.exportedFrom, api.servicesStatus),
    (ApiRequest.list? ns "configmaps" bindingSelector, api.configMapsStatus)]
  (made, if granted then some api.bindings else none)

end HubApi

namespace HubControl

def ofInfo (info : ClusterInfo) : HubControl := ⟨.ofInfo info, [], []⟩

def mapRegistry (c : HubControl) (f : Registry → Registry) : HubControl :=
  { c with registry := f c.registry }

def isCurrent (c : HubControl) (init : Init) : Bool :=
  c.registry.isCurrent init.hub init.generation

/-- Begins to work on an init, unless it is out of date.
mirrors the start of `registry.init_hub` -/
def begin (c : HubControl) (init : Init) : HubControl :=
  if c.isCurrent init then { c with connecting := c.connecting ++ [init] } else c

/-- Takes the oldest init.
mirrors one turn of `Initializer.run` -/
def take (c : HubControl) : HubControl :=
  match c.registry.inits with
  | [] => c
  | init :: rest => (c.mapRegistry fun r => { r with inits := rest }).begin init

/-- Takes in a client that was built, unless it is out of date.
mirrors the end of `registry.init_hub` -/
def succeed (c : HubControl) (init : Init) (found : Recovery.Bindings) : HubControl :=
  let c := { c with connecting := c.connecting.erase init }
  if c.isCurrent init then c.mapRegistry (·.install init found) else c

/-- Pauses after a client could not be built.
mirrors the pause of `registry.init_hub` -/
def fail (c : HubControl) (init : Init) : HubControl :=
  { c with connecting := c.connecting.erase init, backingOff := c.backingOff ++ [init] }

/-- Asks again after a pause, unless the init is out of date.
mirrors `registry.init_hub` after its pause -/
def retry (c : HubControl) (init : Init) : HubControl :=
  let c := { c with backingOff := c.backingOff.erase init }
  if c.isCurrent init then c.mapRegistry fun r => { r with inits := r.inits ++ [init] } else c

end HubControl

end HubFederation
