import HubFederation.Counters
import HubFederation.Fleet
import HubFederation.Status.Board

/-!
# What the controllers act on

A `World` is everything that the controllers of a federation share: the hubs, the
statuses, the counters and the clock on the wall. A journal keeps every call that was
made, with the hub pair on whose behalf it was made.

* `list`, `apply` and `delete` are calls to a hub and may fail; a failed call leaves the
  hub as it was.
* `getPort`, `loadPorts` and `releasePort` deal with bind ports.
-/
namespace HubFederation

/-- A call, and what came of it. -/
inductive Effect where
  | listed (hub : String) (selector : String)
  | listFailed (hub : String) (selector : String)
  | applied (hub : String) (cm : ConfigMap)
  | applyFailed (hub : String) (cm : ConfigMap)
  | deleted (hub : String) (name : String)
  | deleteFailed (hub : String) (name : String)
  | allocated (hub : String) (peer : ExportedPort) (port : Port)
  | loaded (hub : String) (bindings : Recovery.Bindings) (result : Except PortError Unit)
  | released (hub : String) (peer : ExportedPort) (port : Port)

/-- The pair on whose behalf a call is made: the exporting hub and the importing one. -/
abbrev Owner := Option (String × String)

structure World where
  fleet : Fleet
  board : StatusBoard
  counters : Counters
  /-- Every call so far, the oldest first. -/
  journal : List (Owner × Effect)
  clock : Timestamp

namespace World

def record (w : World) (owner : Owner) (e : Effect) : World :=
  { w with journal := w.journal ++ [(owner, e)] }

/-- The ConfigMaps of a hub that carry `labels`.
mirrors `Hubs.list_config_maps` -/
def list (w : World) (owner : Owner) (hub : String) (labels : Labels) :
    World × Option (List ConfigMap) :=
  if w.fleet.listFails hub then (w.record owner (.listFailed hub labels.selector), none)
  else (w.record owner (.listed hub labels.selector), some (w.fleet.list hub labels))

/-- Puts a ConfigMap on a hub; tells whether that worked.
mirrors `Hubs.apply_config_map` -/
def apply (w : World) (owner : Owner) (hub : String) (cm : ConfigMap) : World × Bool :=
  if w.fleet.writeFails hub cm.key then (w.record owner (.applyFailed hub cm), false)
  else ({ w with fleet := w.fleet.put hub cm }.record owner (.applied hub cm), true)

/-- Takes a ConfigMap off a hub; tells whether that worked. One that is not there is
taken off all the same.
mirrors `Hubs.delete_config_map` -/
def delete (w : World) (owner : Owner) (hub name : String) : World × Bool :=
  if w.fleet.writeFails hub name then (w.record owner (.deleteFailed hub name), false)
  else ({ w with fleet := w.fleet.delete hub name }.record owner (.deleted hub name), true)

def setPorts (w : World) (ports : PortPools) : World :=
  { w with fleet := { w.fleet with ports } }

/-- The bind port of `peer` on a hub. Only a port bound just now is recorded.
mirrors `Hubs.get_port_peer` -/
def getPort (w : World) (owner : Owner) (hub : String) (peer : ExportedPort) :
    World × Except PortError Port :=
  match w.fleet.ports.portOf? hub peer with
  | some port => (w, .ok port)
  | none =>
    match w.fleet.ports.get hub peer with
    | .ok (port, ports) => ((w.setPorts ports).record owner (.allocated hub peer port), .ok port)
    | .error e => (w, .error e)

/-- Registers bindings that were found on a hub, up to the first conflict.
mirrors `Hubs.load_port_peer` -/
def loadPorts (w : World) (owner : Owner) (hub : String) (bindings : Recovery.Bindings) : World :=
  let (ports, result) := w.fleet.ports.load hub bindings
  (w.setPorts ports).record owner (.loaded hub bindings result)

/-- Gives the bind port of `peer` back, if it has one.
mirrors `Hubs.delete_port_peer` -/
def releasePort (w : World) (owner : Owner) (hub : String) (peer : ExportedPort) : World :=
  match w.fleet.ports.portOf? hub peer with
  | some port => (w.setPorts (w.fleet.ports.release hub peer)).record owner (.released hub peer port)
  | none => w

/-- Reports about a route, at the time the clock shows.
mirrors `mapping.Controller.report` -/
def report (w : World) (id : RouteId) (r : Report) : World :=
  { w with board := w.board.report w.clock id r }

def count (w : World) (f : Counters → Counters) : World := { w with counters := f w.counters }

end World

end HubFederation
