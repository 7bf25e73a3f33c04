import HubFederation.Proofs.Mapping.Steps

/-!
# Rendering again

Rendering binds ports that are not bound yet, so it changes what it reads. It does so only
once: where a port was bound it stays bound, and a pool that has run out of ports stays as
it is. Rendering the same routes again thus gives the same resources, with any pool that
answers the same about the ports that the routes publish.

* `PortPool.Grows`: what getting ports does to a pool.
* `PortPool.Answers`: what a pool must have in common with another one to answer the same.
* `allocates_renderAll`: rendering changes nothing but the pool of the importing hub and the
  reports.
* `renderAll_replay`: rendering again gives the same and changes nothing but the reports.
-/
namespace HubFederation

/-! ## Bind ports -/

namespace PortPool

/-- Ports that were bound are bound, and a pool without a free port has not changed. -/
structure Grows (p q : PortPool) : Prop where
  kept : ∀ {peer port}, p.portOf? peer = some port → q.portOf? peer = some port
  full : p.firstFree p.capacity p.cursor = none → q = p

theorem Grows.refl (p : PortPool) : p.Grows p := ⟨id, fun _ => rfl⟩

theorem Grows.trans {p q r : PortPool} (h : p.Grows q) (h' : q.Grows r) : p.Grows r := by
  refine ⟨fun hp => h'.kept (h.kept hp), fun hf => ?_⟩
  have hq := h.full hf
  subst hq
  exact h'.full hf

/-- `q` answers about a peer as `p` did: its port is the same, and if `p` had no port left for
it, `q` is the same pool. -/
structure Answers (peer : ExportedPort) (p q : PortPool) : Prop where
  kept : ∀ {port}, p.portOf? peer = some port → q.portOf? peer = some port
  full : p.portOf? peer = none → p.firstFree p.capacity p.cursor = none → q = p

theorem Grows.answers {p q : PortPool} (h : p.Grows q) (peer : ExportedPort) : Answers peer p q :=
  ⟨h.kept, fun _ => h.full⟩

/-- What answers as a pool that has grown answers as the pool did. -/
theorem Grows.answers_left {p q r : PortPool} {peer : ExportedPort} (h : p.Grows q)
    (h' : Answers peer q r) : Answers peer p r := by
  refine ⟨fun hp => h'.kept (h.kept hp), fun hp hf => ?_⟩
  have hq := h.full hf
  subst hq
  exact h'.full hp hf

/-- A pool that has the port of a peer answers about it. -/
theorem answers_of_portOf? {p q : PortPool} {peer : ExportedPort} {port : Port}
    (hp : p.portOf? peer = some port) (hq : q.portOf? peer = some port) : Answers peer p q := by
  refine ⟨fun hport => hq.trans (hp.symm.trans hport), fun hnone _ => ?_⟩
  rw [hp] at hnone
  cases hnone

/-- Getting a port makes a pool grow, and the port is then bound. -/
theorem grows_get {p q : PortPool} {peer : ExportedPort} {port : Port}
    (h : p.get peer = .ok (port, q)) : p.Grows q ∧ q.portOf? peer = some port := by
  rcases get_cases h with ⟨hp, rfl⟩ | ⟨hp, hf, rfl⟩
  · exact ⟨.refl q, hp⟩
  · have hbind (peer' : ExportedPort) :
        PortPool.portOf? { p.rebind peer port with cursor := p.next port } peer' =
          if peer' = peer then some port else p.portOf? peer' := portOf?_rebind ..
    refine ⟨⟨fun {peer' port'} h' => ?_, fun he => ?_⟩, by rw [hbind, if_pos rfl]⟩
    · rw [hbind, if_neg, h']
      intro he
      rw [he, hp] at h'
      cases h'
    · rw [hf] at he
      cases he

end PortPool

namespace World

/-- `w'` is `w` before any call that changes a hub, but for ports of `hub` that were bound in
between. -/
structure Allocates (hub : String) (w w' : World) : Prop extends Prepares hub w w' where
  pool : (w.pool hub).Grows (w'.pool hub)

theorem Allocates.trans {hub : String} {w w' w'' : World} (h : Allocates hub w w')
    (h' : Allocates hub w' w'') : Allocates hub w w'' :=
  ⟨h.toPrepares.trans h'.toPrepares, h.pool.trans h'.pool⟩

/-- Reports and counters make no difference. -/
theorem allocates_of_eq (hub : String) {w w' : World} (hfleet : w'.fleet = w.fleet)
    (hjournal : w'.journal = w.journal) : Allocates hub w w' := by
  refine ⟨prepares_of_eq hub hfleet hjournal, ?_⟩
  unfold World.pool
  rw [hfleet]
  exact .refl _

theorem allocates_getPort (w : World) (owner : Owner) (hub : String) (peer : ExportedPort) :
    Allocates hub w (w.getPort owner hub peer).1 := by
  refine ⟨w.prepares_getPort owner hub peer, ?_⟩
  unfold getPort
  split
  · exact .refl _
  · split
    next h =>
      obtain ⟨p, hp, rfl⟩ := PortPools.get_eq_ok h
      simpa [World.pool, setPorts, record] using (PortPool.grows_get hp).1
    · exact .refl _

/-- A port that was handed out is bound. -/
theorem portOf?_of_getPort {w w₁ : World} {owner : Owner} {hub : String} {peer : ExportedPort}
    {port : Port} (h : w.getPort owner hub peer = (w₁, .ok port)) :
    (w₁.pool hub).portOf? peer = some port := by
  unfold getPort at h
  split at h
  next hp => cases h; exact hp
  · split at h
    next hg =>
      obtain ⟨p, hp, rfl⟩ := PortPools.get_eq_ok hg
      cases h
      simpa [pool, setPorts, record] using (PortPool.grows_get hp).2
    · cases h

/-- A pool that could not hand out a port is as it was, and out of ports. -/
theorem full_of_getPort {w w₁ : World} {owner : Owner} {hub : String} {peer : ExportedPort}
    {e : PortError} (h : w.getPort owner hub peer = (w₁, .error e)) :
    w₁ = w ∧ (w.pool hub).portOf? peer = none ∧ (w.pool hub).get peer = .error e ∧
      (w.pool hub).firstFree (w.pool hub).capacity (w.pool hub).cursor = none := by
  unfold getPort at h
  split at h
  · cases h
  next hp =>
    split at h
    · cases h
    next hg =>
      cases h
      have hg := PortPools.get_eq_error.1 hg
      refine ⟨rfl, hp, hg, ?_⟩
      unfold PortPool.get at hg
      split at hg
      · cases hg
      · split at hg
        · cases hg
        next hf => exact hf

/-- Asking again gives the same answer and changes nothing. -/
theorem getPort_replay {w w₁ w' : World} {owner owner' : Owner} {hub : String}
    {peer : ExportedPort} {r : Except PortError Port} (h : w.getPort owner hub peer = (w₁, r))
    (hg : PortPool.Answers peer (w₁.pool hub) (w'.pool hub)) : w'.getPort owner' hub peer = (w', r) := by
  cases r with
  | ok port =>
    have hp : w'.fleet.ports.portOf? hub peer = some port := hg.kept (portOf?_of_getPort h)
    unfold getPort
    rw [hp]
  | error e =>
    obtain ⟨rfl, hp, he, hf⟩ := full_of_getPort h
    have hsame : w'.fleet.ports.pool hub = w₁.fleet.ports.pool hub := hg.full hp hf
    have hp' : w'.fleet.ports.portOf? hub peer = none := by
      unfold PortPools.portOf?; rw [hsame]; exact hp
    have he' : w'.fleet.ports.get hub peer = .error e := by
      rw [PortPools.get_eq_error, hsame]; exact he
    unfold getPort
    simp only [hp', he']

end World

/-- `g` shows the same hubs, gateways, keys and services. -/
structure Fleet.Agrees (f g : Fleet) : Prop where
  ready : g.ready = f.ready
  graph : g.graph = f.graph
  keys : g.keys = f.keys
  services : g.services = f.services

namespace Fleet.Agrees

variable {f g h : Fleet}

theorem refl (f : Fleet) : f.Agrees f := ⟨rfl, rfl, rfl, rfl⟩

theorem trans (hfg : f.Agrees g) (hgh : g.Agrees h) : f.Agrees h :=
  ⟨hgh.ready.trans hfg.ready, hgh.graph.trans hfg.graph, hgh.keys.trans hfg.keys,
    hgh.services.trans hfg.services⟩

theorem isReady (ha : f.Agrees g) : g.isReady = f.isReady := by
  unfold Fleet.isReady
  rw [ha.ready]

theorem gateway (ha : f.Agrees g) : g.gateway = f.gateway := by
  unfold Fleet.gateway
  rw [ha.graph]

theorem key? (ha : f.Agrees g) : g.key? = f.key? := by
  unfold Fleet.key?
  rw [ha.keys]

theorem service? (ha : f.Agrees g) : g.service? = f.service? := by
  unfold Fleet.service?
  rw [ha.services]

end Fleet.Agrees

namespace Mapping

theorem way_agrees (m : Mapping) {w w' : World} (ha : w.fleet.Agrees w'.fleet) :
    m.way w' = m.way w := by
  unfold way
  rw [ha.graph]

theorem publishes_agrees (m : Mapping) {f g : Fleet} (ha : f.Agrees g) (route : Route) :
    m.publishes g route = m.publishes f route := by
  unfold publishes
  rw [ha.service?]

end Mapping

theorem World.Allocates.agrees {hub : String} {w w' : World} (h : World.Allocates hub w w') :
    w.fleet.Agrees w'.fleet := by
  rw [h.fleet]
  exact ⟨rfl, rfl, rfl, rfl⟩

/-- What a world that came of `w` agrees with, `w` agrees with. -/
theorem World.Allocates.agrees_left {hub : String} {w w₁ : World} {f : Fleet}
    (h : World.Allocates hub w w₁) (ha : w.fleet.Agrees f) : w₁.fleet.Agrees f := by
  rw [h.fleet]
  exact ⟨ha.ready, ha.graph, ha.keys, ha.services⟩

/-! ## Routes -/

namespace Mapping

/-- Steps that render routes bind ports. -/
theorem Steps.allocates {pair : String × String} {asked : ExportedPort → Prop} {w w' : World}
    (h : Steps pair (Step.Renders asked) w w') : World.Allocates pair.2 w w' := by
  refine h.related (fun _ => World.allocates_of_eq pair.2 rfl rfl) .trans fun s hs w => ?_
  cases s with
  | get peer => exact w.allocates_getPort (some pair) pair.2 peer
  | report id r => exact World.allocates_of_eq pair.2 rfl rfl
  | count _ | listed _ | listFailed _ | load _ => cases hs

theorem allocates_of_renderPorts (m : Mapping) (way : List String) (route : Route)
    {ports : List (String × Port)} {w w' : World} {done : Resources × List TunnelPort}
    {r : Except RouteError (Resources × List TunnelPort)}
    (h : m.renderPorts way route w done ports = (w', r)) : World.Allocates m.importing w w' := by
  have hsteps : Steps m.pair (Step.Asks fun _ => True) w (m.renderPorts way route w done ports).1 :=
    m.steps_renderPorts way route ports (fun _ _ => trivial) w done
  rw [h] at hsteps
  exact (hsteps.mono fun _ => Step.Asks.renders).allocates

theorem renderPorts_replay (m : Mapping) (way : List String) (route : Route) (cache : Resources)
    (seeded : SortedSet String) {w' : World} (ports : List (String × Port)) {w w₁ : World}
    {done : Resources × List TunnelPort} {r : Except RouteError (Resources × List TunnelPort)}
    (h : m.renderPorts way route w done ports = (w₁, r)) (ha : w.fleet.Agrees w'.fleet)
    (hg : ∀ p ∈ ports, PortPool.Answers
      ⟨m.exporting, route.spec.source.service.ns, route.spec.source.service.name, p.2⟩
      (w₁.pool m.importing) (w'.pool m.importing)) :
    { m with cache, seeded }.renderPorts way route w' done ports = (w', r) := by
  induction ports generalizing w done with
  | nil => cases h; rfl
  | cons p rest ih =>
    obtain ⟨protocol, port⟩ := p
    have hhead := hg (protocol, port) (List.mem_cons_self ..)
    have htail := fun p hp => hg p (List.mem_cons_of_mem _ hp)
    rw [renderPorts] at h ⊢
    simp only [pair, tunnel, labels] at h ⊢
    cases hget : w.getPort (some (m.exporting, m.importing)) m.importing
        ⟨m.exporting, route.spec.source.service.ns, route.spec.source.service.name, port⟩ with
    | mk w₂ answer =>
      have halloc := World.allocates_getPort w (some (m.exporting, m.importing)) m.importing
        ⟨m.exporting, route.spec.source.service.ns, route.spec.source.service.name, port⟩
      rw [hget] at h halloc
      have ha₂ := halloc.agrees_left ha
      cases answer with
      | error e =>
        cases h
        rw [World.getPort_replay hget hhead]
      | ok bind =>
        simp only at h
        split at h
        next e he =>
          cases h
          rw [World.getPort_replay hget hhead]
          simp only [ha₂.gateway, he]
        next bounds hb =>
          have hrest := allocates_of_renderPorts m way route h
          rw [World.getPort_replay hget (hrest.pool.answers_left hhead)]
          simp only [ha₂.gateway, hb, ha₂.key?]
          exact ih h ha₂ htail

/-- Rendering a route again gives the same and changes nothing. -/
theorem renderRoute_replay (m : Mapping) (way : List String) (route : Route) (cache : Resources)
    (seeded : SortedSet String) {w w₁ w' : World} {r : Except RouteError Resources}
    (h : m.renderRoute way route w = (w₁, r)) (ha : w.fleet.Agrees w'.fleet)
    (hg : ∀ peer ∈ m.publishes w'.fleet route,
      PortPool.Answers peer (w₁.pool m.importing) (w'.pool m.importing)) :
    { m with cache, seeded }.renderRoute way route w' = (w', r) := by
  unfold renderRoute at h ⊢
  unfold publishes at hg
  simp only [ha.service?] at h hg ⊢
  cases hs : w.fleet.service? m.exporting route.spec.source.service with
  | none => rw [hs] at h; cases h; rfl
  | some service =>
    rw [hs] at h hg
    have hasked := fun p hp => hg _ (List.mem_map.2 ⟨p, hp, rfl⟩)
    simp only at h ⊢
    split at h
    next hr => cases h; rw [renderPorts_replay m way route cache seeded _ hr ha hasked]
    next hr =>
      cases h
      rw [renderPorts_replay m way route cache seeded _ hr ha hasked]
      rfl

/-! ## All routes -/

theorem allocates_renderOne (m : Mapping) (way : List String) (base : Report) (s : Rendering)
    (e : RouteId × Route) :
    World.Allocates m.importing s.world (m.renderOne way base s e).world :=
  (m.steps_renderOne way base s e fun _ h => h).allocates

theorem allocates_renderFold (m : Mapping) (way : List String) (base : Report)
    (es : List (RouteId × Route)) (s : Rendering) :
    World.Allocates m.importing s.world (es.foldl (m.renderOne way base) s).world := by
  have hsteps : Steps m.pair (Step.Renders fun _ => True) s.world _ :=
    m.steps_renderFold way base es s fun _ _ _ _ => trivial
  exact hsteps.allocates

/-- Rendering changes nothing but the pool of the importing hub and the reports. -/
theorem allocates_renderAll (m : Mapping) (way : List String) (base : Report) (w : World) :
    World.Allocates m.importing w (m.renderAll way base w).world :=
  allocates_renderFold m way base m.knownRoutes ⟨w, ∅, [], false⟩

/-- `t` renders what `s` did, in a world with the fleet and the journal of `w'`. -/
structure Rendering.Echoes (s t : Rendering) (w' : World) : Prop where
  resources : t.resources = s.resources
  rendered : t.rendered = s.rendered
  frozen : t.frozen = s.frozen
  fleet : t.world.fleet = w'.fleet
  journal : t.world.journal = w'.journal

theorem renderOne_replay (m : Mapping) (way : List String) (base base' : Report)
    (cache : Resources) (seeded : SortedSet String) {w' : World} {s t : Rendering}
    (e : RouteId × Route) (ht : s.Echoes t w') (ha : s.world.fleet.Agrees w'.fleet)
    (hg : ∀ peer ∈ m.publishes w'.fleet e.2, PortPool.Answers peer
      ((m.renderOne way base s e).world.pool m.importing) (w'.pool m.importing)) :
    (m.renderOne way base s e).Echoes ({ m with cache, seeded }.renderOne way base' t e) w' := by
  have hw' : s.world.fleet.Agrees t.world.fleet := by rw [ht.fleet]; exact ha
  have hpool : t.world.pool m.importing = w'.pool m.importing := by
    unfold World.pool; rw [ht.fleet]
  rw [← ht.fleet, ← hpool] at hg
  cases hr : m.renderRoute way e.2 s.world with
  | mk w₁ result =>
    unfold renderOne at hg ⊢
    rw [hr] at hg ⊢
    cases result with
    | ok resources =>
      simp only at hg ⊢
      rw [renderRoute_replay m way e.2 cache seeded hr hw' hg]
      exact ⟨by simp only [ht.resources], by simp only [ht.rendered], ht.frozen, ht.fleet, ht.journal⟩
    | error err =>
      have hg₁ : ∀ peer ∈ m.publishes t.world.fleet e.2,
          PortPool.Answers peer (w₁.pool m.importing) (t.world.pool m.importing) := by
        simp only at hg
        split at hg <;> exact hg
      rw [renderRoute_replay m way e.2 cache seeded hr hw' hg₁]
      simp only
      refine ⟨ht.resources, ht.rendered, by rw [ht.frozen], ?_, ?_⟩
      · split <;> exact ht.fleet
      · split <;> exact ht.journal

theorem renderFold_replay (m : Mapping) (way : List String) (base base' : Report)
    (cache : Resources) (seeded : SortedSet String) {w' : World} (es : List (RouteId × Route))
    {s t : Rendering} (ht : s.Echoes t w') (ha : s.world.fleet.Agrees w'.fleet)
    (hg : ∀ e ∈ es, ∀ peer ∈ m.publishes w'.fleet e.2, PortPool.Answers peer
      ((es.foldl (m.renderOne way base) s).world.pool m.importing) (w'.pool m.importing)) :
    (es.foldl (m.renderOne way base) s).Echoes
      (es.foldl ({ m with cache, seeded }.renderOne way base') t) w' := by
  induction es generalizing s t with
  | nil => exact ht
  | cons e es ih =>
    have hone := allocates_renderOne m way base s e
    have hrest := allocates_renderFold m way base es (m.renderOne way base s e)
    have hecho := renderOne_replay m way base base' cache seeded e ht ha fun peer hpeer =>
      hrest.pool.answers_left (hg e (List.mem_cons_self ..) peer hpeer)
    exact ih hecho (hone.agrees_left ha) fun e' he' => hg e' (List.mem_cons_of_mem _ he')

/-- Rendering again gives the same and changes nothing but the reports. -/
theorem renderAll_replay (m : Mapping) (way : List String) (base base' : Report)
    (cache : Resources) (seeded : SortedSet String) {w w' : World}
    (ha : w.fleet.Agrees w'.fleet)
    (hg : ∀ e ∈ m.knownRoutes, ∀ peer ∈ m.publishes w'.fleet e.2, PortPool.Answers peer
      ((m.renderAll way base w).world.pool m.importing) (w'.pool m.importing)) :
    (m.renderAll way base w).Echoes ({ m with cache, seeded }.renderAll way base' w') w' :=
  renderFold_replay m way base base' cache seeded m.knownRoutes ⟨rfl, rfl, rfl, rfl, rfl⟩ ha hg

end Mapping

end HubFederation
