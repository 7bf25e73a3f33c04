import HubFederation.World

/-!
# The index of routes

The index knows every valid route, and which ports it had bound for each of them on
the importing hub. A bind port is given back when no indexed route records it.

* `allocate` binds the ports of a route and records them.
* `release` gives back ports that nobody records.
* `apply` and `delete` change the index; they tell whether routes have to be regrouped.
-/
namespace HubFederation

/-- mirrors `route.Index` -/
structure RouteIndex where
  routes : SortedMap RouteId Route
  /-- The importing hub and the exported ports that are recorded for a route. -/
  allocated : SortedMap RouteId (String × List ExportedPort)
  deriving DecidableEq

namespace RouteIndex

def empty : RouteIndex := ⟨∅, ∅⟩

/-- The ports that the exported service of a route has now, if the service is known.
mirrors `route.service_peers` -/
def wantedPorts? (w : World) (r : Route) : Option (List ExportedPort) :=
  let source := r.spec.source
  (w.fleet.service? source.hub source.service).map (·.exportedPorts source.hub source.service)

/-- Whether a route records a port on an importing hub.
mirrors the test of `route.Index.release` -/
def isRecorded (x : RouteIndex) (hub : String) (peer : ExportedPort) : Bool :=
  x.allocated.values.any fun (hub', peers) => hub' = hub && peers.contains peer

/-- Gives back those ports that no route records.
mirrors `route.Index.release` -/
def release (x : RouteIndex) (w : World) (hub : String) (peers : List ExportedPort) : World :=
  peers.foldl (fun w peer => if x.isRecorded hub peer then w else w.releasePort none hub peer) w

/-- What came of binding the ports of a route. -/
structure Allocation where
  world : World
  /-- The ports that are bound. -/
  bound : List ExportedPort
  /-- The last error. -/
  error : Option PortError

/-- mirrors one peer of `route.Index.allocate` -/
def allocateOne (hub : String) (a : Allocation) (peer : ExportedPort) : Allocation :=
  match a.world.getPort none hub peer with
  | (w, .ok _) => { a with world := w, bound := a.bound ++ [peer] }
  | (w, .error e) => { a with world := w, error := some e }

/-- mirrors the condition that `route.Index.allocate` reports -/
def finding (hub : String) : Option PortError → Finding
  | none => .holds .portsAllocated "Allocated" ("bind ports allocated on hub " ++ hub)
  | some e => .fails .portsAllocated "AllocationFailed" e.message

/-- Binds the ports of a route, records them and gives back what it no longer uses.
Nothing happens before the importing hub is ready, for only then its bindings are known.
mirrors `route.Index.allocate` -/
def allocate (s : RouteIndex × World) (id : RouteId) : RouteIndex × World :=
  let (x, w) := s
  match x.routes.get? id with
  | none => (x, w)
  | some route =>
    let hub := route.spec.target.hub
    if !w.fleet.isReady hub then (x, w)
    else match wantedPorts? w route with
      | none => (x, w)
      | some wanted =>
        let a := wanted.foldl (allocateOne hub) ⟨w, [], none⟩
        let w := a.world.report id (Report.empty.add (finding hub a.error))
        let before := x.allocated.get? id
        let x := { x with allocated := x.allocated.insert id (hub, a.bound) }
        match before with
        | some (hub, peers) => (x, x.release w hub peers)
        | none => (x, w)

/-- Binds the ports of every route, in order.
mirrors `route.Index.allocate_all` -/
def allocateAll (x : RouteIndex) (w : World) : RouteIndex × World :=
  x.routes.keys.foldl allocate (x, w)

/-- Gives back the ports of a route that is gone: those recorded for it, and those that
its service has now.
mirrors `route.Index.release_route` -/
def releaseRoute (x : RouteIndex) (w : World) (route : Route)
    (recorded : Option (String × List ExportedPort)) : World :=
  let w := match recorded with
    | some (hub, peers) => x.release w hub peers
    | none => w
  match wantedPorts? w route with
  | some peers => x.release w route.spec.target.hub peers
  | none => w

/-- What a change made of the index, and whether routes have to be regrouped. -/
structure Change where
  index : RouteIndex
  world : World
  regroup : Bool

/-- mirrors `route.Index.remove` -/
def remove (x : RouteIndex) (w : World) (id : RouteId) : Change :=
  let recorded := x.allocated.get? id
  let x := { x with allocated := x.allocated.erase id }
  match x.routes.get? id with
  | none =>
    match recorded with
    | some (hub, peers) => ⟨x, x.release w hub peers, false⟩
    | none => ⟨x, w, false⟩
  | some route =>
    let (x, w) := allocateAll { x with routes := x.routes.erase id } w
    ⟨x, x.releaseRoute w route recorded, true⟩

/-- Takes a route in. One that does not join two hubs is as good as none; one whose
specification is known already changes nothing.
mirrors `route.Index.apply` -/
def apply (x : RouteIndex) (w : World) (route : Route) : Change :=
  match route.id? with
  | none => ⟨x, w, false⟩
  | some id =>
    let before := x.routes.get? id
    if !route.spec.isValid then x.remove w id
    else if before.map (·.spec) = some route.spec then ⟨x, w, false⟩
    else
      let recorded := x.allocated.get? id
      let (x, w) := allocateAll ⟨x.routes.insert id route, x.allocated.erase id⟩ w
      match before with
      | some old => ⟨x, x.releaseRoute w old recorded, true⟩
      | none => ⟨x, w, true⟩

/-- mirrors `route.Index.delete` -/
def delete (x : RouteIndex) (w : World) (id : RouteId) : Change := x.remove w id

/-- The routes of each hub pair, in order.
mirrors `route.Index.groups` -/
def groups (x : RouteIndex) : SortedMap (String × String) (List Route) :=
  x.routes.values.foldl
    (fun gs r => gs.alter r.spec.pair fun present => present.getD [] ++ [r]) ∅

end RouteIndex

end HubFederation
