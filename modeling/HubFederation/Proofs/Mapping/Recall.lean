import HubFederation.Proofs.Mapping.Mirror
import HubFederation.Proofs.Render.Published

/-!
# Bind ports are on record

A route that is rendered puts its bind ports on record, in the ConfigMap of the service that it
publishes. A controller that reads the hubs later has them bound again before it asks for any
port.

* `recorded_renderAll`: all that is on record is bound.
* `publishes_renderAll`: all that rendered routes publish is on record.
* `recalls_seed`: reading the importing hub binds what is on record there.
-/
namespace HubFederation

/-- If a ConfigMap is that of a published service, it can be read, and a pool has bound what is on
record there. -/
def Recorded (p : PortPool) (cm : ConfigMap) : Prop :=
  cm.kind? = some .service → ∃ bindings, Recovery.ofConfigMap cm = .ok bindings ∧
    ∀ b ∈ bindings, p.portOf? b.1 = some b.2

namespace Recorded

variable {p q : PortPool} {cm : ConfigMap}

/-- What a cluster adds to a ConfigMap does not matter. -/
theorem normalize_iff : Recorded p cm.normalize ↔ Recorded p cm := Iff.rfl

/-- A pool may change as long as it keeps what it has bound. -/
theorem within (h : Recorded p cm) (hkept : p.Within q) : Recorded q cm := by
  intro hkind
  obtain ⟨bindings, hok, hbound⟩ := h hkind
  exact ⟨bindings, hok, fun b hb => hkept (hbound b hb)⟩

theorem grow (h : Recorded p cm) (hg : p.Grows q) : Recorded q cm := h.within fun _ _ => hg.kept

end Recorded

/-- The service ConfigMap of a route has a bind port of `peer` on record. -/
def Resources.Publishes (r : Resources) (hub route : String) (peer : ExportedPort) : Prop :=
  ∃ cm bindings bind, r.get? hub (Purpose.service route).name = some cm ∧
    cm.kind? = some .service ∧ Recovery.ofConfigMap cm = .ok bindings ∧ (peer, bind) ∈ bindings

/-- What is published is bound in the same way in all pools that have bound what is on record. -/
theorem Resources.Publishes.bound {r : Resources} {hub route : String} {peer : ExportedPort}
    {p q : PortPool} (h : r.Publishes hub route peer)
    (hp : ∀ name cm, r.get? hub name = some cm → Recorded p cm)
    (hq : ∀ name cm, r.get? hub name = some cm → Recorded q cm) :
    ∃ bind, p.portOf? peer = some bind ∧ q.portOf? peer = some bind := by
  obtain ⟨cm, bindings, bind, hget, hkind, hok, hmem⟩ := h
  have hbound {pool : PortPool} (hr : Recorded pool cm) : pool.portOf? peer = some bind := by
    obtain ⟨bindings', hok', hbound⟩ := hr hkind
    cases hok.symm.trans hok'
    exact hbound _ hmem
  exact ⟨bind, hbound (hp _ cm hget), hbound (hq _ cm hget)⟩

namespace Mapping

/-! ## What a route puts on record -/

/-- A tunnel is published for each port, with the port that was bound for it. -/
theorem published_renderPorts (m : Mapping) (way : List String) (route : Route)
    {ports : List (String × Port)} {w w' : World} {done done' : Resources × List TunnelPort}
    (h : m.renderPorts way route w done ports = (w', .ok done')) :
    ∃ new, done'.2 = done.2 ++ new ∧ new.map (·.port) = ports.map (·.2) ∧
      ∀ t ∈ new, (w'.pool m.importing).portOf? ⟨m.exporting, route.spec.source.service.ns,
        route.spec.source.service.name, t.port⟩ = some t.targetPort := by
  induction ports generalizing w done with
  | nil =>
    cases h
    exact ⟨[], (List.append_nil _).symm, rfl, by simp⟩
  | cons p rest ih =>
    obtain ⟨w₁, bind, bounds, hget, -, h⟩ := renderPorts_cons_eq_ok h
    obtain ⟨new, hdone, hports, hbound⟩ := ih h
    have hrest := allocates_of_renderPorts m way route h
    refine ⟨⟨Text.lowercase p.1 ++ "-" ++ p.2.text, p.1, p.2, bind⟩ :: new, ?_, ?_, ?_⟩
    · rw [hdone, List.append_assoc]
      rfl
    · rw [List.map_cons, List.map_cons, hports]
    · intro t ht
      rcases List.mem_cons.1 ht with rfl | ht
      · exact hrest.pool.kept (World.portOf?_of_getPort hget)
      · exact hbound t ht

/-- A rendered route needs ConfigMaps that publish nothing, and publishes one service: that has the
ports of the exported service on record, with the bind ports that they have. -/
theorem published_renderRoute (m : Mapping) (way : List String) {route : Route} {w w' : World}
    {r : Resources} (h : m.renderRoute way route w = (w', .ok r)) :
    ∃ (tunnels : Resources) (ports : List TunnelPort),
      tunnels.All (fun cm => cm.kind? ≠ some .service) ∧
      r = (if ports.isEmpty then tunnels
        else tunnels.insert m.importing (Render.service m.labels route.name route.spec ports)) ∧
      (Recovery.published m.exporting route.spec.source.service ports).map (·.1) =
        m.publishes w.fleet route ∧
      ∀ b ∈ Recovery.published m.exporting route.spec.source.service ports,
        (w'.pool m.importing).portOf? b.1 = some b.2 := by
  obtain ⟨service, tunnels, ports, hservice, hrender, rfl⟩ := renderRoute_eq_ok h
  obtain ⟨new, hnew, hports, hbound⟩ := published_renderPorts m way route hrender
  rw [List.nil_append] at hnew
  subst hnew
  have htunnels := all_renderPorts m way route (fun cm => cm.kind? ≠ some .service)
    (fun _ _ _ _ => Render.kind?_hubConfigMaps) hrender Resources.all_empty
  refine ⟨tunnels, ports, htunnels, rfl, ?_, ?_⟩
  · unfold publishes Recovery.published Service.exportedPorts
    rw [hservice, List.map_map]
    have hpeers := congrArg (List.map fun port => (⟨m.exporting, route.spec.source.service.ns,
      route.spec.source.service.name, port⟩ : ExportedPort)) hports
    rwa [List.map_map, List.map_map] at hpeers
  · intro b hb
    obtain ⟨t, ht, rfl⟩ := List.mem_map.1 hb
    exact hbound t ht

theorem recorded_renderRoute (m : Mapping) (way : List String) {route : Route} {w w' : World}
    {r : Resources} (h : m.renderRoute way route w = (w', .ok r)) :
    r.All (Recorded (w'.pool m.importing)) := by
  obtain ⟨tunnels, ports, htunnels, rfl, -, hbound⟩ := published_renderRoute m way h
  have hnone : tunnels.All (Recorded (w'.pool m.importing)) :=
    htunnels.mono fun cm hcm hkind => absurd hkind hcm
  split
  · exact hnone
  · exact hnone.insert fun _ => ⟨_, Recovery.ofConfigMap_service .., hbound⟩

theorem publishes_renderRoute (m : Mapping) (way : List String) {route : Route} {w w' : World}
    {r : Resources} (h : m.renderRoute way route w = (w', .ok r)) {peer : ExportedPort}
    (hp : peer ∈ m.publishes w.fleet route) : r.Publishes m.importing route.name peer := by
  obtain ⟨tunnels, ports, -, rfl, hpeers, -⟩ := published_renderRoute m way h
  rw [← hpeers] at hp
  obtain ⟨b, hb, rfl⟩ := List.mem_map.1 hp
  have hsome : ports.isEmpty = false := by
    cases ports with
    | nil => cases hb
    | cons t ports => rfl
  refine ⟨Render.service m.labels route.name route.spec ports, _, b.2, ?_,
    Recovery.kind?_service .., Recovery.ofConfigMap_service .., hb⟩
  rw [hsome, if_neg Bool.false_ne_true, Resources.get?_insert, if_pos ⟨rfl, rfl⟩]

/-- A route renders nothing under the name of another one's service. -/
theorem get?_renderRoute_of_ne (m : Mapping) (way : List String) {route : Route} {w w' : World}
    {r : Resources} (h : m.renderRoute way route w = (w', .ok r)) {name : String}
    (hne : route.name ≠ name) (hub : String) : r.get? hub (Purpose.service name).name = none := by
  refine Option.eq_none_iff_forall_ne_some.2 fun cm hcm => ?_
  obtain ⟨p, hname, hroute⟩ := (all_renderRoute m way h hub _ cm hcm).named
  have hpurpose : p = .service name := by
    refine Purpose.name_injective ?_
    rw [← (ConfigMap.key_of_name hname).1, Resources.key_of_get? hcm]
  exact hne (hroute name (by rw [hpurpose]; rfl)).symm

/-! ## What all routes put on record -/

/-- One route is rendered and added, or changes nothing but ports and reports. -/
theorem renderOne_cases (m : Mapping) (way : List String) (base : Report) (s : Rendering)
    (e : RouteId × Route) :
    (∃ w r, m.renderRoute way e.2 s.world = (w, .ok r) ∧ m.renderOne way base s e =
        { s with world := w, resources := s.resources.merge r, rendered := s.rendered ++ [e.1] }) ∨
      ((m.renderOne way base s e).resources = s.resources ∧
        (m.renderOne way base s e).rendered = s.rendered) := by
  unfold renderOne
  split
  next w r hr => exact .inl ⟨w, r, hr, rfl⟩
  · exact .inr ⟨rfl, rfl⟩

theorem recorded_renderFold (m : Mapping) (way : List String) (base : Report)
    (es : List (RouteId × Route)) {s : Rendering}
    (h : s.resources.All (Recorded (s.world.pool m.importing))) :
    (es.foldl (m.renderOne way base) s).resources.All
      (Recorded ((es.foldl (m.renderOne way base) s).world.pool m.importing)) := by
  induction es generalizing s with
  | nil => exact h
  | cons e es ih =>
    have hgrown := h.mono fun cm hcm => hcm.grow (allocates_renderOne m way base s e).pool
    refine ih ?_
    rcases m.renderOne_cases way base s e with ⟨w, r, hr, he⟩ | ⟨he, -⟩
    · rw [he] at hgrown ⊢
      exact hgrown.merge (recorded_renderRoute m way hr)
    · rw [he]
      exact hgrown

/-- All that is on record is bound. -/
theorem recorded_renderAll (m : Mapping) (way : List String) (base : Report) (w : World) :
    (m.renderAll way base w).resources.All
      (Recorded ((m.renderAll way base w).world.pool m.importing)) :=
  recorded_renderFold m way base m.knownRoutes Resources.all_empty

/-- Routes leave alone what another one put on record. -/
theorem get?_renderFold_of_ne (m : Mapping) (way : List String) (base : Report)
    (es : List (RouteId × Route)) {name : String} (h : ∀ e ∈ es, e.2.name ≠ name) (hub : String)
    (s : Rendering) :
    (es.foldl (m.renderOne way base) s).resources.get? hub (Purpose.service name).name =
      s.resources.get? hub (Purpose.service name).name := by
  induction es generalizing s with
  | nil => rfl
  | cons e es ih =>
    refine (ih (fun e' he' => h e' (List.mem_cons_of_mem _ he')) _).trans ?_
    rcases m.renderOne_cases way base s e with ⟨w, r, hr, he⟩ | ⟨he, -⟩
    · rw [he, Resources.get?_merge,
        get?_renderRoute_of_ne m way hr (h e (List.mem_cons_self ..)) hub]
      rfl
    · rw [he]

theorem length_rendered_renderFold_le (m : Mapping) (way : List String) (base : Report)
    (es : List (RouteId × Route)) (s : Rendering) :
    (es.foldl (m.renderOne way base) s).rendered.length ≤ s.rendered.length + es.length := by
  induction es generalizing s with
  | nil => exact Nat.le_refl _
  | cons e es ih =>
    have hrest := ih (m.renderOne way base s e)
    have hone : (m.renderOne way base s e).rendered.length ≤ s.rendered.length + 1 := by
      rcases m.renderOne_cases way base s e with ⟨w, r, -, he⟩ | ⟨-, he⟩
      · simp [he]
      · simp [he]
    rw [List.foldl_cons, List.length_cons]
    omega

/-- If each of the routes was rendered and no two have one name, all that they publish is on
record. -/
theorem publishes_renderFold (m : Mapping) (way : List String) (base : Report)
    (es : List (RouteId × Route)) {s : Rendering} (hn : (es.map (·.2.name)).Nodup)
    (hr : (es.foldl (m.renderOne way base) s).rendered.length = s.rendered.length + es.length) :
    ∀ e ∈ es, ∀ peer ∈ m.publishes s.world.fleet e.2,
      (es.foldl (m.renderOne way base) s).resources.Publishes m.importing e.2.name peer := by
  induction es generalizing s with
  | nil => simp
  | cons e es ih =>
    obtain ⟨hnew, hn⟩ := List.nodup_cons.1 hn
    have hle := length_rendered_renderFold_le m way base es (m.renderOne way base s e)
    rw [List.foldl_cons, List.length_cons] at hr
    intro e' he' peer hpeer
    rcases m.renderOne_cases way base s e with ⟨w, r, hok, he⟩ | ⟨-, he⟩
    · have hlength : (m.renderOne way base s e).rendered.length = s.rendered.length + 1 := by
        simp [he]
      rcases List.mem_cons.1 he' with rfl | he'
      · have hother : ∀ e ∈ es, e.2.name ≠ e'.2.name := fun e hmem hname =>
          hnew (List.mem_map.2 ⟨e, hmem, hname⟩)
        obtain ⟨cm, bindings, bind, hget, hrest⟩ := publishes_renderRoute m way hok hpeer
        refine ⟨cm, bindings, bind, ?_, hrest⟩
        rw [List.foldl_cons, get?_renderFold_of_ne m way base es hother, he, Resources.get?_merge,
          hget]
        rfl
      · have hagrees := (allocates_renderOne m way base s e).agrees
        refine ih hn (by omega) e' he' peer ?_
        rwa [m.publishes_agrees hagrees]
    · -- The route was not rendered, and the others are too few to make up for it.
      rw [he] at hle
      omega

/-- All that rendered routes publish is on record. -/
theorem publishes_renderAll (m : Mapping) (way : List String) (base : Report) (w : World)
    (hn : (m.knownRoutes.map (·.2.name)).Nodup)
    (hr : (m.renderAll way base w).rendered = m.knownRoutes.map (·.1)) :
    ∀ e ∈ m.knownRoutes, ∀ peer ∈ m.publishes w.fleet e.2,
      (m.renderAll way base w).resources.Publishes m.importing e.2.name peer := by
  have hlength := congrArg List.length hr
  rw [List.length_map] at hlength
  exact publishes_renderFold m way base m.knownRoutes hn
    (hlength.trans (Nat.zero_add _).symm)

/-! ## Reading what is on record -/

/-- Bind ports are recalled: the pool of the importing hub has nothing bound but what an `old` one
had, and once the hub was read what is on record there is bound. -/
structure Recalls (old : PortPool) (m : Mapping) (w : World) : Prop where
  partOf : (w.pool m.importing).PartOf old
  recorded : m.seeded.contains m.importing = true → ∀ name found,
    w.fleet.configMaps.get? m.importing name = some found → m.labels.selects found.labelSet →
    Recorded (w.pool m.importing) found

/-- Taking in a ConfigMap binds what is on record there, if it is on the importing hub. -/
theorem pool_adopt {old : PortPool} (ho : old.OneToOne) (m : Mapping) (hub : String) {w : World}
    {cm : ConfigMap} (hw : (w.pool m.importing).PartOf old)
    (hr : hub = m.importing → Recorded old cm) :
    (w.pool m.importing).Within ((m.adopt hub w cm).2.pool m.importing) ∧
      ((m.adopt hub w cm).2.pool m.importing).PartOf old ∧
      (hub = m.importing → Recorded ((m.adopt hub w cm).2.pool m.importing) cm) := by
  unfold adopt
  simp only
  split
  next hservice =>
    obtain ⟨rfl, hkind⟩ := hservice
    obtain ⟨bindings, hok, hbound⟩ := hr rfl hkind
    obtain ⟨-, hkept, hread, hpart⟩ := PortPool.load_of_partOf ho bindings hw hbound
    rw [hok]
    simp only [World.pool_loadPorts_self]
    exact ⟨hkept, hpart, fun _ _ => ⟨bindings, hok, hread⟩⟩
  next hservice =>
    exact ⟨.refl _, hw, fun hhub hkind => absurd ⟨hhub, hkind⟩ hservice⟩

theorem pool_adoptAll {old : PortPool} (ho : old.OneToOne) (m : Mapping) (hub : String)
    (cms : List ConfigMap) {w : World} (hw : (w.pool m.importing).PartOf old)
    (hr : hub = m.importing → ∀ cm ∈ cms, Recorded old cm) :
    let w' := cms.foldl (fun w cm => (m.adopt hub w cm).2) w
    (w.pool m.importing).Within (w'.pool m.importing) ∧ (w'.pool m.importing).PartOf old ∧
      (hub = m.importing → ∀ cm ∈ cms, Recorded (w'.pool m.importing) cm) := by
  induction cms generalizing w with
  | nil => exact ⟨.refl _, hw, by simp⟩
  | cons cm cms ih =>
    obtain ⟨hkept, hold, hone⟩ := m.pool_adopt ho hub hw fun hhub =>
      hr hhub cm (List.mem_cons_self ..)
    obtain ⟨hkept', hold', hrest⟩ := ih hold fun hhub cm' hcm' =>
      hr hhub cm' (List.mem_cons_of_mem _ hcm')
    refine ⟨hkept.trans hkept', hold', fun hhub cm' hcm' => ?_⟩
    rcases List.mem_cons.1 hcm' with rfl | hcm'
    · exact (hone hhub).within hkept'
    · exact hrest hhub cm' hcm'

/-- What is on record on the importing hub was bound in the `old` pool. -/
def OnRecord (old : PortPool) (m : Mapping) (w : World) : Prop :=
  ∀ name found, w.fleet.configMaps.get? m.importing name = some found →
    m.labels.selects found.labelSet → Recorded old found

theorem recalls_seedHub {old : PortPool} (ho : old.OneToOne) {m : Mapping} {w : World}
    (hr : m.OnRecord old w) (h : Recalls old m w) (hub : String) :
    Recalls old (seedHub (m, w) hub).1 (seedHub (m, w) hub).2 := by
  rcases m.seedHub_cases w hub with ⟨-, he⟩ | ⟨-, he⟩ | ⟨-, -, he⟩
  · rw [he]
    exact h
  · rw [he]
    exact ⟨h.partOf, h.recorded⟩
  · have hhubs : (seedHub (m, w) hub).2.fleet.configMaps = w.fleet.configMaps := by
      rw [(m.reads_seedHub w hub).fleet]
    have hlisted : hub = m.importing → ∀ cm ∈ w.fleet.list hub m.labels, Recorded old cm := by
      rintro rfl cm hcm
      obtain ⟨hmem, hl⟩ := List.mem_filter.1 hcm
      exact hr cm.key cm (Fleet.mem_configMapsOf.1 hmem) hl
    have hall := pool_adoptAll ho m hub (w.fleet.list hub m.labels)
      (w := w.record (some m.pair) (.listed hub m.labels.selector)) h.partOf hlisted
    rw [he] at hhubs ⊢
    obtain ⟨hkept, hold, hone⟩ := hall
    refine ⟨hold, fun hs name found hf hl => ?_⟩
    rw [hhubs] at hf
    by_cases hhub : hub = m.importing
    · subst hhub
      refine hone rfl found (List.mem_filter.2 ⟨Fleet.mem_configMapsOf.2 ?_, hl⟩)
      rwa [Resources.key_of_get? hf]
    · have hne : m.importing ≠ hub := fun he => hhub he.symm
      rw [SortedSet.add, SortedMap.contains, SortedMap.get?_insert_of_ne _ _ hne] at hs
      exact (h.recorded hs name found hf hl).within hkept

/-- Reading the importing hub binds what is on record there. -/
theorem recalls_seed {old : PortPool} (ho : old.OneToOne) (way : List String) {m : Mapping}
    {w : World} (hr : m.OnRecord old w) (h : Recalls old m w) :
    Recalls old (m.seed w way).1 (m.seed w way).2 := by
  induction way generalizing m w with
  | nil => exact h
  | cons hub way ih =>
    have hreads := m.reads_seedHub w hub
    have hnext : (seedHub (m, w) hub).1.OnRecord old (seedHub (m, w) hub).2 := by
      unfold OnRecord
      rw [hreads.mapping, hreads.fleet]
      exact hr
    exact ih hnext (recalls_seedHub ho hr h hub)

end Mapping

end HubFederation
