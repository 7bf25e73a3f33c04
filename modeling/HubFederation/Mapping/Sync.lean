import HubFederation.Mapping.Basic

/-!
# Synchronizing a hub pair

One synchronization solves the way, reads hubs that are new on it, renders every route
and makes the hubs hold what was rendered. Each route is reported on.

* A hub that is not ready, or a route whose chain cannot be built, stops everything
  before a call that changes a hub.
* A route that cannot be rendered for another reason is withdrawn.
-/
namespace HubFederation.Mapping

/-- The routes that have a namespace, with what they are known by. -/
def knownRoutes (m : Mapping) : List (RouteId × Route) :=
  m.routes.filterMap fun r => r.id?.map (·, r)

/-- mirrors `mapping.hub_condition` -/
def hubFinding (type : ConditionType) (hub : String) (ready : Bool) : Finding :=
  if ready then .holds type "Ready" ("hub " ++ hub ++ " is ready")
  else .fails type "HubNotReady" ("hub " ++ hub ++ " is not ready")

/-- What a report says about the two hubs. -/
def readiness (m : Mapping) (w : World) : Report :=
  (Report.empty.add (hubFinding .exportHubReady m.exporting (w.fleet.isReady m.exporting))).add
    (hubFinding .importHubReady m.importing (w.fleet.isReady m.importing))

/-- The hubs between the ends of a way. -/
def middle (way : List String) : List String := way.tail.dropLast

/-- mirrors `mapping.path_condition` -/
def pathFinding (way : List String) : Finding :=
  .holds .pathReachable "Reachable"
    (if (middle way).isEmpty then "<Direct>" else ",".intercalate (middle way))

def portsFinding (hub : String) : Finding :=
  .holds .portsAllocated "Allocated" ("bind ports allocated on hub " ++ hub)

def portsErrorFinding (e : PortError) : Finding :=
  .fails .portsAllocated "AllocationFailed" e.message

def syncedFinding (failed : Bool) : Finding :=
  if failed then .fails .routeSynced "ApplyFailed" "failed to apply tunnel resources"
  else .holds .routeSynced "Synced" "tunnel resources applied"

/-- What a report says about a route that was not rendered; `none` if it is not for the
route to know.
mirrors `mapping.Controller.report_error` -/
def errorFindings (way : List String) : RouteError → Option (List Finding)
  | e@(.serviceNotFound ..) =>
    some [pathFinding way, .fails .routeSynced "ServiceNotFound" e.message]
  | .ports e => some [portsErrorFinding e]
  | e@(.chain (.unreachable ..)) => some [.fails .pathReachable "Unreachable" e.message]
  | .chain _ => none

/-- What came of rendering the routes. -/
structure Rendering where
  world : World
  resources : Resources
  /-- The routes that were rendered. -/
  rendered : List RouteId
  /-- Whether an error keeps the pair from touching the hubs. -/
  frozen : Bool

/-- Renders one route, or reports why not.
mirrors one route of `mapping.Controller.sync` -/
def renderOne (m : Mapping) (way : List String) (base : Report) (s : Rendering)
    (e : RouteId × Route) : Rendering :=
  match m.renderRoute way e.2 s.world with
  | (w, .ok resources) =>
    { s with
      world := w, resources := s.resources.merge resources, rendered := s.rendered ++ [e.1] }
  | (w, .error err) =>
    let w := match errorFindings way err with
      | some findings => w.report e.1 (findings.foldl Report.add base)
      | none => w
    { s with world := w, frozen := s.frozen || err.freezes }

/-- mirrors the loop over the routes in `mapping.Controller.sync` -/
def renderAll (m : Mapping) (way : List String) (base : Report) (w : World) : Rendering :=
  m.knownRoutes.foldl (m.renderOne way base) ⟨w, ∅, [], false⟩

/-- What a report says about a route that was rendered.
mirrors the last loop of `mapping.Controller.sync` -/
def renderedReport (m : Mapping) (way : List String) (base : Report) (failed : Bool) : Report :=
  ((base.add (portsFinding m.importing)).add (pathFinding way)).add (syncedFinding failed)

/-- One synchronization.
mirrors `mapping.Controller.sync` -/
def sync (m : Mapping) (w : World) : Mapping × World :=
  let w := w.count (·.synced m.pair)
  let base := m.readiness w
  if !(w.fleet.isReady m.exporting && w.fleet.isReady m.importing) then
    (m, (m.knownRoutes.foldl (fun w e => w.report e.1 base) w).count (·.syncFailed m.pair))
  else
    let way := m.way w
    let (m, w) := m.seed w way
    let base := base.withWay way
    let r := m.renderAll way base w
    if r.frozen then (m, r.world.count (·.syncFailed m.pair))
    else
      let p := m.converge r.world r.resources
      let w := if p.failed then p.world.count (·.syncFailed m.pair) else p.world
      let report := m.renderedReport way base p.failed
      (p.mapping, r.rendered.foldl (fun w id => w.report id report) w)

end HubFederation.Mapping
