import HubFederation.Render
import HubFederation.Text.Lowercase
import HubFederation.World

/-!
# The controller of a hub pair

A `Mapping` looks after everything that one pair of hubs needs on all hubs along its
way: it remembers what it last put where, and which hubs it has read.

* `seed` reads what earlier runs left on the hubs of a way.
* `renderRoute` renders everything that one route needs.
* `converge` makes the hubs hold what was rendered.
-/
namespace HubFederation

/-- mirrors `mapping.Controller` -/
structure Mapping where
  exporting : String
  importing : String
  /-- The key that every SSH hop logs in with. -/
  identityFile : String
  routes : List Route
  /-- What was last applied, or found on a hub. -/
  cache : Resources
  /-- The hubs whose ConfigMaps were read into the cache. -/
  seeded : SortedSet String
  deriving DecidableEq

/-- Why a route cannot be rendered. -/
inductive RouteError where
  | serviceNotFound (hub : String) (service : ServiceRef)
  | ports (cause : PortError)
  | chain (cause : ChainError)
  deriving DecidableEq, Repr

/-- mirrors the display of `RouteError` -/
def RouteError.message : RouteError → String
  | .serviceNotFound hub s => "service " ++ s.ns ++ "/" ++ s.name ++ " not found on hub " ++ hub
  | .ports cause => cause.message
  | .chain cause => cause.message

/-- Whether an error keeps the pair from touching the hubs.
mirrors what `mapping.Controller.report_error` returns -/
def RouteError.freezes : RouteError → Bool
  | .chain _ => true
  | _ => false

namespace Mapping

/-- A controller that knows nothing yet. -/
def ofPair (exporting importing identityFile : String) : Mapping :=
  ⟨exporting, importing, identityFile, [], ∅, ∅⟩

def pair (m : Mapping) : String × String := (m.exporting, m.importing)

/-- What everything that the pair owns is labeled with. -/
def labels (m : Mapping) : Labels := .pair m.exporting m.importing

/-- The way of the pair, by what the hubs show now.
mirrors the call of `way.solve` in `mapping.Controller.sync` -/
def way (m : Mapping) (w : World) : List String :=
  Way.solve w.fleet.graph.network m.exporting m.importing

/-! ## Reading the hubs -/

/-- Takes a ConfigMap that was found on a hub into the cache. One that records bind
ports of the importing hub has them registered.
mirrors one ConfigMap of `mapping.Controller.seed` -/
def adopt (m : Mapping) (hub : String) (w : World) (cm : ConfigMap) : Mapping × World :=
  let w :=
    if hub = m.importing ∧ cm.kind? = some .service then
      match Recovery.ofConfigMap cm with
      | .ok bindings => w.loadPorts (some m.pair) hub bindings
      | .error _ => w
    else w
  ({ m with cache := m.cache.insert hub cm.normalize }, w)

/-- Reads a hub, unless that was done before or the hub is not ready.
mirrors one hub of `mapping.Controller.seed` -/
def seedHub (s : Mapping × World) (hub : String) : Mapping × World :=
  let (m, w) := s
  if m.seeded.contains hub || !w.fleet.isReady hub then (m, w)
  else match w.list (some m.pair) hub m.labels with
    | (w, none) => (m, w.count (·.callFailed hub))
    | (w, some cms) =>
      let (m, w) := cms.foldl (fun (m, w) cm => m.adopt hub w cm) (m, w)
      ({ m with seeded := m.seeded.add hub }, w)

/-- Reads every hub of a way.
mirrors `mapping.Controller.seed` -/
def seed (m : Mapping) (w : World) (way : List String) : Mapping × World :=
  way.foldl seedHub (m, w)

/-! ## Rendering routes -/

/-- The tunnel for one port of a route. -/
def tunnel (m : Mapping) (route : Route) (port bind : Port) : Tunnel :=
  ⟨route.name, route.spec.source.service, port, bind, m.identityFile⟩

/-- Renders the tunnels of ports, after those that are in `done` already.
mirrors the loop of `mapping.Controller.render_route` -/
def renderPorts (m : Mapping) (way : List String) (route : Route) (w : World)
    (done : Resources × List TunnelPort) :
    List (String × Port) → World × Except RouteError (Resources × List TunnelPort)
  | [] => (w, .ok done)
  | (protocol, port) :: rest =>
    let source := route.spec.source.service
    match w.getPort (some m.pair) m.importing ⟨m.exporting, source.ns, source.name, port⟩ with
    | (w, .error e) => (w, .error (.ports e))
    | (w, .ok bind) =>
      let t := m.tunnel route port bind
      match t.bounds w.fleet.gateway way with
      | .error e => (w, .error (.chain e))
      | .ok bounds =>
        let resources := Render.addBounds m.labels t w.fleet.key? bounds done.1
        let published : TunnelPort :=
          ⟨Text.lowercase protocol ++ "-" ++ port.text, protocol, port, bind⟩
        renderPorts m way route w (resources, done.2 ++ [published]) rest

/-- Where ports are rendered, the first one has a bind port and chains, and the others are rendered
after it. -/
theorem renderPorts_cons_eq_ok {m : Mapping} {way : List String} {route : Route} {w w' : World}
    {done done' : Resources × List TunnelPort} {p : String × Port} {ports : List (String × Port)}
    (h : m.renderPorts way route w done (p :: ports) = (w', .ok done')) :
    ∃ w₁ bind bounds,
      w.getPort (some m.pair) m.importing ⟨m.exporting, route.spec.source.service.ns,
        route.spec.source.service.name, p.2⟩ = (w₁, .ok bind) ∧
      (m.tunnel route p.2 bind).bounds w₁.fleet.gateway way = .ok bounds ∧
      m.renderPorts way route w₁
        (Render.addBounds m.labels (m.tunnel route p.2 bind) w₁.fleet.key? bounds done.1,
          done.2 ++ [⟨Text.lowercase p.1 ++ "-" ++ p.2.text, p.1, p.2, bind⟩]) ports =
        (w', .ok done') := by
  rw [renderPorts] at h
  simp only at h
  split at h
  · cases h
  next w₁ bind hget =>
    split at h
    · cases h
    next bounds hbounds => exact ⟨w₁, bind, bounds, hget, hbounds, h⟩

/-- Everything that one route needs on every hub of the way.
mirrors `mapping.Controller.render_route` -/
def renderRoute (m : Mapping) (way : List String) (route : Route) (w : World) :
    World × Except RouteError Resources :=
  let source := route.spec.source.service
  match w.fleet.service? m.exporting source with
  | none => (w, .error (.serviceNotFound m.exporting source))
  | some service =>
    match m.renderPorts way route w (∅, []) service.usablePorts with
    | (w, .error e) => (w, .error e)
    | (w, .ok (resources, published)) =>
      let resources :=
        if published.isEmpty then resources
        else resources.insert m.importing (Render.service m.labels route.name route.spec published)
      (w, .ok resources)

/-- A route that is rendered has a Service that is known, and that one's ports are rendered. -/
theorem renderRoute_eq_ok {m : Mapping} {way : List String} {route : Route} {w w' : World}
    {r : Resources} (h : m.renderRoute way route w = (w', .ok r)) :
    ∃ service tunnels ports,
      w.fleet.service? m.exporting route.spec.source.service = some service ∧
      m.renderPorts way route w (∅, []) service.usablePorts = (w', .ok (tunnels, ports)) ∧
      r = if ports.isEmpty then tunnels
        else tunnels.insert m.importing (Render.service m.labels route.name route.spec ports) := by
  unfold renderRoute at h
  simp only at h
  split at h
  · cases h
  next service hservice =>
    split at h
    · cases h
    next tunnels ports hports =>
      cases h
      exact ⟨service, tunnels, ports, hservice, hports, rfl⟩

/-- A route that is not rendered has a Service that is unknown, or a port that is not rendered. -/
theorem renderRoute_eq_error {m : Mapping} {way : List String} {route : Route} {w w' : World}
    {err : RouteError} (h : m.renderRoute way route w = (w', .error err)) :
    (w.fleet.service? m.exporting route.spec.source.service = none ∧
        err = .serviceNotFound m.exporting route.spec.source.service) ∨
      ∃ service, w.fleet.service? m.exporting route.spec.source.service = some service ∧
        m.renderPorts way route w (∅, []) service.usablePorts = (w', .error err) := by
  unfold renderRoute at h
  simp only at h
  split at h
  next hservice =>
    cases h
    exact .inl ⟨hservice, rfl⟩
  next service hservice =>
    split at h
    next hports =>
      cases h
      exact .inr ⟨service, hservice, hports⟩
    · cases h

/-! ## Writing to the hubs -/

/-- What became of a list of calls. -/
structure Progress where
  mapping : Mapping
  world : World
  /-- Whether a call failed. -/
  failed : Bool

/-- Applies a ConfigMap, and remembers it if that worked.
mirrors one apply of `mapping.Controller.converge` -/
def applyOne (p : Progress) (e : String × ConfigMap) : Progress :=
  match p.world.apply (some p.mapping.pair) e.1 e.2 with
  | (w, true) =>
    { p with
      mapping := { p.mapping with cache := p.mapping.cache.insert e.1 e.2 }
      world := w.count (·.applied e.1) }
  | (w, false) => { p with world := w.count (·.callFailed e.1), failed := true }

/-- Deletes a ConfigMap, and forgets it if that worked.
mirrors `mapping.Controller.delete` -/
def deleteOne (p : Progress) (e : String × String) : Progress :=
  match p.world.delete (some p.mapping.pair) e.1 e.2 with
  | (w, true) =>
    { p with
      mapping := { p.mapping with cache := p.mapping.cache.remove e.1 e.2 }
      world := w.count (·.deleted e.1) }
  | (w, false) => { p with world := w.count (·.callFailed e.1), failed := true }

/-- Applies what differs from the cache, then deletes what is no longer rendered. What
failed still differs the next time.
mirrors `mapping.Controller.converge` -/
def converge (m : Mapping) (w : World) (next : Resources) : Progress :=
  let p := (m.cache.toApply next).foldl applyOne ⟨m, w, false⟩
  (p.mapping.cache.toDelete next).foldl deleteOne p

/-- Deletes everything that the pair owns.
mirrors `mapping.Controller.teardown` -/
def teardown (m : Mapping) (w : World) : Mapping × World :=
  let (m, w) := m.seed w (m.way w)
  let p := (m.cache.toDelete ∅).foldl deleteOne ⟨m, w, false⟩
  (p.mapping, p.world)

end Mapping

end HubFederation
