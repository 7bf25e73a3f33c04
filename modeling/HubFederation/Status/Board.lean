import HubFederation.Route
import HubFederation.Status.Finding
import HubFederation.Status.Outbox

/-!
# The status of every route

A `StatusBoard` keeps what is known about each route, renders its status and puts an
update into the outbox whenever the status differs from the one handed out last.

* A condition keeps its transition time for as long as its status does not change.
* `RouteReady` is derived: it holds when all five conditions do, and otherwise names
  those that do not.
-/
namespace HubFederation

/-- What is known about one route. -/
structure RouteState where
  source : String
  target : String
  way : String
  conditions : SortedMap ConditionType Condition
  lastSynced : Option Timestamp
  /-- The status handed out last, unless it could not be written. -/
  published : Option RouteStatus
  deriving DecidableEq

namespace RouteState

def empty : RouteState := ⟨"", "", "", ∅, none, none⟩

/-- Adopts a condition that was published before, if it is one of the five.
mirrors one condition of `RouteState.seed` -/
def adopt (conditions : SortedMap ConditionType Condition) (c : Condition) :
    SortedMap ConditionType Condition :=
  match ConditionType.ofText? c.type with
  | some type => conditions.insert type c
  | none => conditions

/-- What a published status says about a route.
mirrors `RouteState.seed` -/
def ofStatus (s : RouteStatus) : RouteState :=
  { empty with
    way := s.way
    conditions := s.conditions.foldl adopt ∅
    lastSynced := s.lastSynced
    published := some s }

/-- Whether the status of a condition is not what a finding says. -/
def changes (s : RouteState) (f : Finding) : Bool :=
  match s.conditions.get? f.type with
  | some c => c.status ≠ f.status
  | none => true

/-- Takes a finding in that was made at `now`.
mirrors `RouteState.set` -/
def record (now : Timestamp) (s : RouteState) (f : Finding) : RouteState :=
  let changed := s.changes f
  let since := match s.conditions.get? f.type with
    | some c => if changed then now else c.lastTransition
    | none => now
  { s with
    lastSynced := if changed && f.type = .routeSynced && f.ready then some now else s.lastSynced
    conditions := s.conditions.insert f.type ⟨f.type.text, f.status, f.reason, f.message, since, none⟩ }

/-- Takes a report in. -/
def apply (now : Timestamp) (s : RouteState) (r : Report) : RouteState :=
  let s := match r.way with
    | some way => { s with way := ",".intercalate way }
    | none => s
  r.findings.foldl (record now) s

/-- Whether a condition holds. -/
def isTrue (s : RouteState) (type : ConditionType) : Bool :=
  match s.conditions.get? type with
  | some c => c.status = "True"
  | none => false

def isReady (s : RouteState) : Bool := ConditionType.all.all s.isTrue

/-- The conditions that do not hold, in order.
mirrors the message of `RouteState.render` -/
def pending (s : RouteState) : List String :=
  (ConditionType.all.filter fun type => !s.isTrue type).map ConditionType.text

/-- The latest of the times at which conditions changed. -/
def latest (first : Condition) (rest : List Condition) : Timestamp :=
  rest.foldl (fun t c => t.max c.lastTransition) first.lastTransition

/-- The condition derived from all others; it changes together with them.
mirrors the derived condition of `RouteState.render` -/
def routeReady (s : RouteState) (first : Condition) (rest : List Condition) : Condition :=
  if s.isReady then ⟨"RouteReady", "True", "Ready", "", latest first rest, none⟩
  else ⟨"RouteReady", "False", "NotReady", ",".intercalate s.pending, latest first rest, none⟩

/-- The status as it is published.
mirrors `RouteState.render` -/
def render (s : RouteState) : RouteStatus where
  phase := if s.isReady then "RouteReady" else "NotReady"
  way := s.way
  source := s.source
  target := s.target
  lastSynced := s.lastSynced
  conditions := match s.conditions.values with
    | [] => []
    | first :: rest => first :: rest ++ [s.routeReady first rest]

end RouteState

/-- The states of all known routes, and the updates on their way out.
mirrors `status.Index` -/
structure StatusBoard where
  routes : SortedMap RouteId RouteState
  outbox : Outbox
  deriving DecidableEq

namespace StatusBoard

/-- A board without routes, whose outbox holds up to `capacity` updates.
mirrors `status.Index.shared` -/
def ofCapacity (capacity : Nat) : StatusBoard := ⟨∅, .ofCapacity capacity⟩

/-- The rendered status of a route.
mirrors `status.Index.status` -/
def status? (b : StatusBoard) (id : RouteId) : Option RouteStatus :=
  (b.routes.get? id).map (·.render)

/-- Hands the status of a route out, unless it was handed out before. A status for
which there is no room is handed out by a later report.
mirrors `status.Index.publish` -/
def publish (b : StatusBoard) (id : RouteId) : StatusBoard :=
  match b.routes.get? id with
  | none => b
  | some state =>
    let status := state.render
    if state.published = some status then b
    else match b.outbox.push ⟨id, status⟩ with
      | (outbox, true) => ⟨b.routes.insert id { state with published := some status }, outbox⟩
      | (outbox, false) => { b with outbox }

/-- Takes in a report on a route that is known.
mirrors `status.Index.report` -/
def report (b : StatusBoard) (now : Timestamp) (id : RouteId) (r : Report) : StatusBoard :=
  publish { b with routes := b.routes.modify id fun s => s.apply now r } id

/-- Makes a route known, and adopts its stored status if it was not known before.
mirrors `status.Index.apply` -/
def apply (b : StatusBoard) (route : Route) : StatusBoard :=
  match route.id? with
  | none => b
  | some id =>
    let state := match b.routes.get? id, route.status with
      | some state, _ => state
      | none, some status => .ofStatus status
      | none, none => .empty
    let state := { state with source := route.spec.source.text, target := route.spec.target.text }
    publish { b with routes := b.routes.insert id state } id

/-- mirrors `status.Index.delete` -/
def delete (b : StatusBoard) (id : RouteId) : StatusBoard := { b with routes := b.routes.erase id }

/-- Forgets what was handed out for a route, so that the next report hands it out again.
mirrors `status.Index.patch_failed` -/
def patchFailed (b : StatusBoard) (id : RouteId) : StatusBoard :=
  { b with routes := b.routes.modify id fun s => { s with published := none } }

end StatusBoard

end HubFederation
