import HubFederation.Mapping.Sync
import HubFederation.Proofs.Mapping.Writes
import HubFederation.Proofs.Ports.Binding
import Mathlib.Logic.Relation

/-!
# What a controller does before it writes

Until it writes to a hub, a controller changes the world in few ways: it journals that it listed
a hub, registers bind ports that it found on record, asks for bind ports, reports, and counts.
Reading hubs and rendering routes come to such steps, one after the other. So what every step
of a phase does to the world, the phase does: `Steps.related` says that of any relation between
worlds that is reflexive and transitive.

* `Step`, `Steps`: one of these steps, and a list of them that are all allowed.
* `steps_seed`: reading hubs lists them, and registers what is on record.
* `steps_renderAll`: rendering asks for the ports that routes publish.
* `Steps.prepares`: no step is a call that changes a hub.
-/
namespace HubFederation

namespace PortPools

theorem get_eq_ok {ps ps' : PortPools} {hub : String} {peer : ExportedPort} {port : Port}
    (h : ps.get hub peer = .ok (port, ps')) :
    ∃ p, (ps.pool hub).get peer = .ok (port, p) ∧ ps' = ps.setPool hub p := by
  unfold get at h
  cases hp : (ps.pool hub).get peer with
  | error e => rw [hp] at h; cases h
  | ok r => rw [hp] at h; cases h; exact ⟨r.2, rfl, rfl⟩

theorem get_eq_error {ps : PortPools} {hub : String} {peer : ExportedPort} {e : PortError} :
    ps.get hub peer = .error e ↔ (ps.pool hub).get peer = .error e := by
  unfold get
  cases (ps.pool hub).get peer with
  | error e' => constructor <;> (intro h; cases h; rfl)
  | ok r => exact ⟨fun h => (nomatch h), fun h => (nomatch h)⟩

end PortPools

namespace World

/-- The pool of a hub. -/
def pool (w : World) (hub : String) : PortPool := w.fleet.ports.pool hub

/-- `w'` differs from `w` at most in bind ports, reports and counters, and by what is journaled
besides calls that change a hub. The pool of `hub` is used as pools are. -/
structure Prepares (hub : String) (w w' : World) : Prop where
  fleet : w'.fleet = { w.fleet with ports := w'.fleet.ports }
  used : (w.pool hub).Used → (w'.pool hub).Used
  journal : ∃ es, w'.journal = w.journal ++ es ∧ ∀ e ∈ es, e.2.call? = none

/-- Reports and counters make no difference. -/
theorem prepares_of_eq (hub : String) {w w' : World} (hfleet : w'.fleet = w.fleet)
    (hjournal : w'.journal = w.journal) : Prepares hub w w' := by
  refine ⟨by rw [hfleet], fun hu => ?_, [], by rw [hjournal, List.append_nil], by simp⟩
  unfold pool
  rwa [hfleet]

theorem Prepares.trans {hub : String} {w w' w'' : World} (h : Prepares hub w w')
    (h' : Prepares hub w' w'') : Prepares hub w w'' := by
  obtain ⟨es, he, hcall⟩ := h.journal
  obtain ⟨es', he', hcall'⟩ := h'.journal
  refine ⟨by rw [h'.fleet, h.fleet], h'.used ∘ h.used, es ++ es', ?_, fun e hmem => ?_⟩
  · rw [he', he, List.append_assoc]
  · exact (List.mem_append.1 hmem).elim (hcall e) (hcall' e)

/-- A world in which something was journaled that is no call. -/
theorem prepares_record (hub : String) (w : World) (owner : Owner) {e : Effect}
    (h : e.call? = none) : Prepares hub w (w.record owner e) :=
  ⟨rfl, id, [(owner, e)], rfl, fun _ hmem => by rw [List.mem_singleton.1 hmem]; exact h⟩

theorem pool_loadPorts_self (w : World) (owner : Owner) (hub : String)
    (bindings : Recovery.Bindings) :
    (w.loadPorts owner hub bindings).pool hub = ((w.pool hub).load bindings).1 :=
  PortPools.pool_setPool_self ..

theorem prepares_loadPorts (w : World) (owner : Owner) (hub : String)
    (bindings : Recovery.Bindings) : Prepares hub w (w.loadPorts owner hub bindings) := by
  refine ⟨rfl, fun hu => ?_, [(owner, .loaded hub bindings _)], rfl, fun e hmem => ?_⟩
  · rw [pool_loadPorts_self]
    exact PortPool.used_load bindings hu
  · rw [List.mem_singleton.1 hmem]
    rfl

theorem prepares_getPort (w : World) (owner : Owner) (hub : String) (peer : ExportedPort) :
    Prepares hub w (w.getPort owner hub peer).1 := by
  unfold getPort
  split
  · exact prepares_of_eq hub rfl rfl
  · split
    next port ports h =>
      obtain ⟨p, hp, rfl⟩ := PortPools.get_eq_ok h
      refine ⟨rfl, fun hu => ?_, [(owner, .allocated hub peer port)], rfl, fun e hmem => ?_⟩
      · simpa [pool, setPorts, record] using hu.get hp
      · rw [List.mem_singleton.1 hmem]
        rfl
    · exact prepares_of_eq hub rfl rfl

end World

namespace Mapping

/-! ## Steps -/

/-- One thing that a controller does to the world before it writes. -/
inductive Step where
  | count (f : Counters → Counters)
  | listed (hub : String)
  | listFailed (hub : String)
  /-- Bindings are registered that were found on the importing hub. -/
  | load (bindings : Recovery.Bindings)
  /-- The importing hub is asked for the bind port of a peer. -/
  | get (peer : ExportedPort)
  | report (id : RouteId) (r : Report)

namespace Step

/-- What a step of the controller of a pair makes of the world. -/
def run (pair : String × String) (w : World) : Step → World
  | count f => w.count f
  | listed hub => w.record (some pair) (.listed hub (Labels.pair pair.1 pair.2).selector)
  | listFailed hub =>
    (w.record (some pair) (.listFailed hub (Labels.pair pair.1 pair.2).selector)).count
      (·.callFailed hub)
  | load bindings => w.loadPorts (some pair) pair.2 bindings
  | get peer => (w.getPort (some pair) pair.2 peer).1
  | report id r => w.report id r

/-- The controller of a pair reads hubs: all that it registers is on record in a ConfigMap of the
pair, on its importing hub. -/
def Reads (pair : String × String) (f : Fleet) : Step → Prop
  | count _ | listed _ | listFailed _ => True
  | load bindings => ∃ cm ∈ f.list pair.2 (.pair pair.1 pair.2), cm.kind? = some .service ∧
      Recovery.ofConfigMap cm = .ok bindings
  | get _ | report .. => False

/-- The controller asks for the bind port of one of these peers. -/
def Asks (asked : ExportedPort → Prop) : Step → Prop
  | get peer => asked peer
  | count _ | listed _ | listFailed _ | load _ | report .. => False

/-- The controller renders routes that publish these peers. -/
def Renders (asked : ExportedPort → Prop) : Step → Prop
  | get peer => asked peer
  | report .. => True
  | count _ | listed _ | listFailed _ | load _ => False

/-- A step that tells the board nothing. -/
def Silent : Step → Prop
  | report .. => False
  | count _ | listed _ | listFailed _ | load _ | get _ => True

theorem Asks.renders {asked : ExportedPort → Prop} {s : Step} (h : s.Asks asked) :
    s.Renders asked := by
  cases s with
  | get peer => exact h
  | count _ | listed _ | listFailed _ | load _ | report _ _ => cases h

theorem Renders.mono {asked asked' : ExportedPort → Prop} {s : Step} (hs : s.Renders asked)
    (h : ∀ peer, asked peer → asked' peer) : s.Renders asked' := by
  cases s with
  | get peer => exact h peer hs
  | report _ _ => trivial
  | count _ | listed _ | listFailed _ | load _ => cases hs

theorem Asks.silent {asked : ExportedPort → Prop} {s : Step} (h : s.Asks asked) : s.Silent := by
  cases s with
  | get peer => trivial
  | count _ | listed _ | listFailed _ | load _ | report _ _ => cases h

theorem Reads.silent {pair : String × String} {f : Fleet} {s : Step} (h : s.Reads pair f) :
    s.Silent := by
  cases s with
  | count _ | listed _ | listFailed _ | load _ => trivial
  | get _ | report _ _ => cases h

/-- Bind ports have no part in what there is to read. -/
theorem reads_of_fleet {f g : Fleet} (h : g = { f with ports := g.ports })
    (pair : String × String) : Reads pair g = Reads pair f := by
  rw [h]
  funext s
  cases s <;> rfl

theorem prepares (pair : String × String) (w : World) (s : Step) :
    World.Prepares pair.2 w (s.run pair w) := by
  cases s with
  | count f => exact World.prepares_of_eq pair.2 rfl rfl
  | listed hub => exact w.prepares_record pair.2 (some pair) rfl
  | listFailed hub =>
    exact (w.prepares_record pair.2 (some pair) rfl).trans (World.prepares_of_eq pair.2 rfl rfl)
  | load bindings => exact w.prepares_loadPorts (some pair) pair.2 bindings
  | get peer => exact w.prepares_getPort (some pair) pair.2 peer
  | report id r => exact World.prepares_of_eq pair.2 rfl rfl

end Step

/-- `w'` comes of `w` by steps of the controller of a pair that are all `allowed`. -/
def Steps (pair : String × String) (allowed : Step → Prop) : World → World → Prop :=
  Relation.ReflTransGen fun w w' => ∃ s, allowed s ∧ w' = s.run pair w

namespace Steps

variable {pair : String × String} {allowed allowed' : Step → Prop} {w w' w'' : World}

theorem refl (w : World) : Steps pair allowed w w := Relation.ReflTransGen.refl

theorem single {s : Step} (h : allowed s) (w : World) : Steps pair allowed w (s.run pair w) :=
  Relation.ReflTransGen.single ⟨s, h, rfl⟩

theorem trans (h : Steps pair allowed w w') (h' : Steps pair allowed w' w'') :
    Steps pair allowed w w'' :=
  Relation.ReflTransGen.trans h h'

/-- What every allowed step does to the world, steps do. -/
theorem related {R : World → World → Prop} (hrefl : ∀ w, R w w)
    (htrans : ∀ {w w' w''}, R w w' → R w' w'' → R w w'')
    (hstep : ∀ s, allowed s → ∀ w, R w (s.run pair w)) (h : Steps pair allowed w w') : R w w' := by
  induction h with
  | refl => exact hrefl w
  | tail _ hs ih =>
    obtain ⟨s, hs, rfl⟩ := hs
    exact htrans ih (hstep s hs _)

theorem mono (h : Steps pair allowed w w') (hsub : ∀ s, allowed s → allowed' s) :
    Steps pair allowed' w w' :=
  h.related refl trans fun s hs => single (hsub s hs)

theorem prepares (h : Steps pair allowed w w') : World.Prepares pair.2 w w' :=
  h.related (fun _ => World.prepares_of_eq pair.2 rfl rfl) .trans fun s _ w => s.prepares pair w

end Steps

/-! ## Reading hubs -/

/-- Taking in a ConfigMap of the pair registers what it has on record, if it is on the importing
hub. -/
theorem steps_adopt (m : Mapping) {f : Fleet} {hub : String} {cm : ConfigMap}
    (hcm : cm ∈ f.list hub m.labels) (w : World) :
    Steps m.pair (Step.Reads m.pair f) w (m.adopt hub w cm).2 := by
  unfold adopt
  simp only
  split
  next hservice =>
    obtain ⟨rfl, hkind⟩ := hservice
    split
    next bindings hbindings =>
      exact .single (s := .load bindings) ⟨cm, hcm, hkind, hbindings⟩ w
    · exact .refl w
  · exact .refl w

/-- What was found is cached one by one, and its bind ports are registered one by one. -/
theorem adoptAll_eq (hub : String) (cms : List ConfigMap) (m : Mapping) (w : World) :
    cms.foldl (fun s cm => s.1.adopt hub s.2 cm) (m, w) =
      ({ m with cache := cms.foldl (fun c cm => c.insert hub cm.normalize) m.cache },
        cms.foldl (fun w cm => (m.adopt hub w cm).2) w) := by
  induction cms generalizing m w with
  | nil => rfl
  | cons cm cms ih =>
    simp only [List.foldl_cons]
    rw [ih]
    rfl

/-- A hub that was read or is not ready is left out. Otherwise it is listed, and unless that
fails all that is listed is taken in. -/
theorem seedHub_cases (m : Mapping) (w : World) (hub : String) :
    ((m.seeded.contains hub = true ∨ w.fleet.isReady hub = false) ∧
        seedHub (m, w) hub = (m, w)) ∨
      (w.fleet.listFails hub = true ∧ seedHub (m, w) hub =
        (m, (w.record (some m.pair) (.listFailed hub m.labels.selector)).count
          (·.callFailed hub))) ∨
      (w.fleet.isReady hub = true ∧ w.fleet.listFails hub = false ∧ seedHub (m, w) hub =
        ({ m with
            cache := (w.fleet.list hub m.labels).foldl (fun c cm => c.insert hub cm.normalize) m.cache
            seeded := m.seeded.add hub },
          (w.fleet.list hub m.labels).foldl (fun w cm => (m.adopt hub w cm).2)
            (w.record (some m.pair) (.listed hub m.labels.selector)))) := by
  unfold seedHub World.list
  simp only
  by_cases hskip : (m.seeded.contains hub || !w.fleet.isReady hub) = true
  · rw [if_pos hskip]
    exact .inl ⟨by simpa using hskip, rfl⟩
  · rw [if_neg hskip]
    simp only [Bool.or_eq_true, Bool.not_eq_true', not_or, Bool.not_eq_true,
      Bool.not_eq_false] at hskip
    cases hfails : w.fleet.listFails hub with
    | true => exact .inr (.inl ⟨rfl, rfl⟩)
    | false =>
      refine .inr (.inr ⟨hskip.2, rfl, ?_⟩)
      simp only [Bool.false_eq_true, if_false, adoptAll_eq]

/-- A controller remains what it is but for what it remembers. -/
theorem mapping_seedHub (m : Mapping) (w : World) (hub : String) :
    (seedHub (m, w) hub).1 = { m with
      cache := (seedHub (m, w) hub).1.cache, seeded := (seedHub (m, w) hub).1.seeded } := by
  rcases m.seedHub_cases w hub with ⟨-, he⟩ | ⟨-, he⟩ | ⟨-, -, he⟩ <;> rw [he]

theorem steps_seedHub (m : Mapping) (w : World) (hub : String) :
    Steps m.pair (Step.Reads m.pair w.fleet) w (seedHub (m, w) hub).2 := by
  rcases m.seedHub_cases w hub with ⟨-, he⟩ | ⟨-, he⟩ | ⟨-, -, he⟩
  · rw [he]
    exact .refl w
  · rw [he]
    exact .single (s := .listFailed hub) trivial w
  · rw [he]
    refine List.foldlRecOn _ _ (.single (s := .listed hub) trivial w) fun w' h cm hcm => ?_
    exact h.trans (m.steps_adopt hcm w')

/-- Reading the hubs of a way lists them, and registers what is on record on the importing one. -/
theorem steps_seed (way : List String) (m : Mapping) (w : World) :
    Steps m.pair (Step.Reads m.pair w.fleet) w (m.seed w way).2 := by
  induction way generalizing m w with
  | nil => exact .refl w
  | cons hub way ih =>
    have hone := m.steps_seedHub w hub
    have hrest := ih (seedHub (m, w) hub).1 (seedHub (m, w) hub).2
    have hpair : (seedHub (m, w) hub).1.pair = m.pair := by
      rw [mapping_seedHub]
      rfl
    rw [hpair, Step.reads_of_fleet hone.prepares.fleet] at hrest
    exact hone.trans hrest

/-! ## Rendering routes -/

/-- The exported ports that a route publishes. -/
def publishes (m : Mapping) (f : Fleet) (route : Route) : List ExportedPort :=
  match f.service? m.exporting route.spec.source.service with
  | none => []
  | some service => service.exportedPorts m.exporting route.spec.source.service

variable {asked : ExportedPort → Prop}

theorem steps_renderPorts (m : Mapping) (way : List String) (route : Route)
    (ports : List (String × Port)) (h : ∀ p ∈ ports, asked
      ⟨m.exporting, route.spec.source.service.ns, route.spec.source.service.name, p.2⟩) (w : World)
    (done : Resources × List TunnelPort) :
    Steps m.pair (Step.Asks asked) w (m.renderPorts way route w done ports).1 := by
  induction ports generalizing w done with
  | nil => exact .refl w
  | cons p rest ih =>
    have hget : Steps m.pair (Step.Asks asked) w (w.getPort (some m.pair) m.importing
        ⟨m.exporting, route.spec.source.service.ns, route.spec.source.service.name, p.2⟩).1 :=
      .single (s := .get _) (h p (List.mem_cons_self ..)) w
    rw [renderPorts]
    simp only
    split
    next hp => rw [hp] at hget; exact hget
    next hp =>
      rw [hp] at hget
      split
      · exact hget
      · exact hget.trans (ih (fun p' hp' => h p' (List.mem_cons_of_mem _ hp')) _ _)

theorem steps_renderRoute (m : Mapping) (way : List String) (route : Route) (w : World)
    (h : ∀ peer ∈ m.publishes w.fleet route, asked peer) :
    Steps m.pair (Step.Asks asked) w (m.renderRoute way route w).1 := by
  unfold renderRoute
  unfold publishes at h
  cases hs : w.fleet.service? m.exporting route.spec.source.service with
  | none => simp only [hs]; exact .refl w
  | some service =>
    rw [hs] at h
    have hports := m.steps_renderPorts way route service.usablePorts
      (fun p hp => h _ (List.mem_map_of_mem hp)) w (∅, [])
    simp only [hs]
    split
    next hr => rw [hr] at hports; exact hports
    next hr => rw [hr] at hports; exact hports

theorem steps_renderOne (m : Mapping) (way : List String) (base : Report) (s : Rendering)
    (e : RouteId × Route) (h : ∀ peer ∈ m.publishes s.world.fleet e.2, asked peer) :
    Steps m.pair (Step.Renders asked) s.world (m.renderOne way base s e).world := by
  have hroute := (m.steps_renderRoute way e.2 s.world h).mono fun _ => Step.Asks.renders
  unfold renderOne
  split
  next hr => rw [hr] at hroute; exact hroute
  next w _ hr =>
    rw [hr] at hroute
    simp only
    split
    · exact hroute.trans (.single (s := .report e.1 _) trivial w)
    · exact hroute

theorem steps_renderFold (m : Mapping) (way : List String) (base : Report)
    (es : List (RouteId × Route)) (s : Rendering)
    (h : ∀ e ∈ es, ∀ peer ∈ m.publishes s.world.fleet e.2, asked peer) :
    Steps m.pair (Step.Renders asked) s.world (es.foldl (m.renderOne way base) s).world := by
  induction es generalizing s with
  | nil => exact .refl s.world
  | cons e es ih =>
    have hone := m.steps_renderOne way base s e (h e (List.mem_cons_self ..))
    refine hone.trans (ih _ fun e' he' => ?_)
    rw [hone.prepares.fleet]
    exact h e' (List.mem_cons_of_mem _ he')

/-- Rendering routes asks for the ports that they publish, and reports. -/
theorem steps_renderAll (m : Mapping) (way : List String) (base : Report) (w : World)
    (h : ∀ e ∈ m.knownRoutes, ∀ peer ∈ m.publishes w.fleet e.2, asked peer) :
    Steps m.pair (Step.Renders asked) w (m.renderAll way base w).world :=
  m.steps_renderFold way base m.knownRoutes ⟨w, ∅, [], false⟩ h

end Mapping

end HubFederation
