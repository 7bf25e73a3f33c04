import HubFederation.Proofs.Chain.Obstacles
import HubFederation.Proofs.Mapping.Reports

/-!
# What is reported about the path

`PathReachable` is about the way of the pair: whether every two neighbours on it have a
side that can be dialed. A synchronization learns that only by building a chain, and it
builds chains only for ports that it publishes. So it reports the truth about every
route that publishes a port, and `True` about every other one.

* `passable_of_bounds`, `not_passable_of_bounds`: what building chains tells of a way.
* `sync_pathReachable`: what a synchronization reports.
-/
namespace HubFederation

/-- Every two neighbours on a way have a side that can be dialed. -/
def Way.Passable (gateway : Gateways) (way : List String) : Prop :=
  ∀ p ∈ Chains.neighbours way, (gateway p.1 p.2).reachable ∨ (gateway p.2 p.1).reachable

instance (gateway : Gateways) (way : List String) : Decidable (Way.Passable gateway way) :=
  inferInstanceAs (Decidable (∀ p ∈ Chains.neighbours way, _))

/-! ## Building chains -/

namespace Tunnel

/-- Chains were built along a way, so it is passable. -/
theorem passable_of_bounds {t : Tunnel} {gateway : Gateways} {way : List String} {bs : Bounds}
    (h : t.bounds gateway way = .ok bs) : Way.Passable gateway way :=
  fun pair hp => ((exists_bounds_iff.1 ⟨bs, h⟩).2 pair hp).reachable

/-- A pair is said to be unreachable, so the way is not passable. -/
theorem not_passable_of_bounds {t : Tunnel} {gateway : Gateways} {way : List String} {e i : String}
    (h : t.bounds gateway way = .error (.unreachable e i)) : ¬ Way.Passable gateway way := by
  intro hpass
  rcases bounds_eq_error_iff.1 h with ⟨-, h⟩ | ⟨before, pair, after, hsplit, -, hobstacle⟩
  · cases h
  · cases hobstacle with
    | unreachable hr =>
      have hmem : pair ∈ Chains.neighbours way :=
        hsplit ▸ List.mem_append_right _ (List.mem_cons_self ..)
      exact hr (hpass pair hmem)

end Tunnel

/-! ## Rendering a route -/

theorem World.gateway_getPort {w w' : World} {owner : Owner} {hub : String} {peer : ExportedPort}
    {r : Except PortError Port} (h : w.getPort owner hub peer = (w', r)) :
    w'.fleet.gateway = w.fleet.gateway := by
  have halloc := World.allocates_getPort w owner hub peer
  rw [h] at halloc
  exact congrArg Graph.gateway halloc.agrees.graph

namespace Mapping

/-- The ports of a route are rendered one by one; each that was rendered has a chain. -/
theorem passable_of_renderPorts {m : Mapping} {way : List String} {route : Route} {w w' : World}
    {done done' : Resources × List TunnelPort} {ports : List (String × Port)} (hne : ports ≠ [])
    (h : m.renderPorts way route w done ports = (w', .ok done')) :
    Way.Passable w.fleet.gateway way := by
  cases ports with
  | nil => exact absurd rfl hne
  | cons p rest =>
    obtain ⟨w₁, bind, bounds, hget, hbounds, -⟩ := renderPorts_cons_eq_ok h
    rw [World.gateway_getPort hget] at hbounds
    exact Tunnel.passable_of_bounds hbounds

/-- A port fails to be rendered for want of a bind port or of a chain. -/
theorem renderPorts_eq_error {m : Mapping} {way : List String} {route : Route} {w w' : World}
    {done : Resources × List TunnelPort} {ports : List (String × Port)} {err : RouteError}
    (h : m.renderPorts way route w done ports = (w', .error err)) :
    ports ≠ [] ∧ ((∃ cause, err = .ports cause) ∨ ∃ cause, err = .chain cause ∧
      ∃ t : Tunnel, t.bounds w.fleet.gateway way = .error cause) := by
  induction ports generalizing w done with
  | nil => cases h
  | cons p rest ih =>
    refine ⟨List.cons_ne_nil _ _, ?_⟩
    rw [renderPorts] at h
    simp only at h
    split at h
    next e _ => cases h; exact .inl ⟨e, rfl⟩
    next hget =>
      split at h
      next e he =>
        cases h
        rw [World.gateway_getPort hget] at he
        exact .inr ⟨e, rfl, _, he⟩
      · have hrest := (ih h).2
        rwa [World.gateway_getPort hget] at hrest

/-- What came of rendering a route tells whether the way is passable, if a port of the
route is published. -/
theorem passable_of_renderRoute {m : Mapping} {way : List String} {route : Route} {w : World}
    {r : Resources} (h : (m.renderRoute way route w).2 = .ok r) :
    Way.Passable w.fleet.gateway way ∨ m.publishes w.fleet route = [] := by
  obtain ⟨service, tunnels, ports, hservice, hports, -⟩ :=
    renderRoute_eq_ok (Prod.ext rfl h : m.renderRoute way route w = (_, .ok r))
  by_cases hne : service.usablePorts = []
  · exact .inr (by simp [publishes, hservice, Service.exportedPorts, hne])
  · exact .inl (passable_of_renderPorts hne hports)

theorem publishes_of_serviceNotFound {m : Mapping} {way : List String} {route : Route} {w : World}
    {hub : String} {s : ServiceRef}
    (h : (m.renderRoute way route w).2 = .error (.serviceNotFound hub s)) :
    m.publishes w.fleet route = [] := by
  rcases renderRoute_eq_error (Prod.ext rfl h : m.renderRoute way route w = (_, .error _)) with
    ⟨hservice, -⟩ | ⟨service, -, hports⟩
  · simp [publishes, hservice]
  · rcases (renderPorts_eq_error hports).2 with ⟨_, hcause⟩ | ⟨_, hcause, -⟩ <;> cases hcause

theorem not_passable_of_renderRoute {m : Mapping} {way : List String} {route : Route} {w : World}
    {e i : String} (h : (m.renderRoute way route w).2 = .error (.chain (.unreachable e i))) :
    ¬ (Way.Passable w.fleet.gateway way ∨ m.publishes w.fleet route = []) := by
  rcases renderRoute_eq_error (Prod.ext rfl h : m.renderRoute way route w = (_, .error _)) with
    ⟨-, herr⟩ | ⟨service, hservice, hports⟩
  · cases herr
  · obtain ⟨hne, hcause⟩ := renderPorts_eq_error hports
    rcases hcause with ⟨_, hcause⟩ | ⟨_, hcause, t, hbounds⟩
    · cases hcause
    · cases hcause
      refine not_or.2 ⟨Tunnel.not_passable_of_bounds hbounds, ?_⟩
      simpa [publishes, hservice, Service.exportedPorts] using hne

/-! ## Reports -/

theorem findings_foldl_add (fs : List Finding) (base : Report) :
    (fs.foldl Report.add base).findings = base.findings ++ fs := by
  induction fs generalizing base with
  | nil => exact (List.append_nil _).symm
  | cons f fs ih => rw [List.foldl_cons, ih]; simp [Report.add]

/-- What is said about every route is not about the path. -/
theorem common_silent (m : Mapping) (w : World) {f : Finding} (h : f ∈ (m.common w).findings) :
    f.type ≠ .pathReachable := by
  have hubs : (m.common w).findings =
      [hubFinding .exportHubReady m.exporting (w.fleet.isReady m.exporting),
        hubFinding .importHubReady m.importing (w.fleet.isReady m.importing)] := rfl
  rw [hubs] at h
  intro hpath
  simp only [List.mem_cons, List.not_mem_nil, or_false] at h
  rcases h with rfl | rfl <;> (unfold hubFinding at hpath; split at hpath <;> cases hpath)

/-- The one thing that is said about the path of a rendered route. -/
theorem conclusion_path (m : Mapping) (w : World) {f : Finding}
    (h : f ∈ (m.conclusion w).findings) (hpath : f.type = .pathReachable) :
    f = pathFinding (m.way w) := by
  have hall : (m.conclusion w).findings = (m.common w).findings ++
      [portsFinding m.importing, pathFinding (m.way w), syncedFinding (m.converging w).failed] := by
    simp [conclusion, renderedReport, Report.add]
  rw [hall, List.mem_append] at h
  rcases h with h | h
  · exact absurd hpath (m.common_silent w h)
  · simp only [List.mem_cons, List.not_mem_nil, or_false] at h
    rcases h with hports | hfound | hsynced
    · rw [hports] at hpath
      cases hpath
    · exact hfound
    · rw [hsynced] at hpath
      unfold syncedFinding at hpath
      split at hpath <;> cases hpath

/-- What is said about the path of a route that could not be rendered. -/
theorem errorFindings_path {way : List String} {err : RouteError} {fs : List Finding} {f : Finding}
    (h : errorFindings way err = some fs) (hf : f ∈ fs) (hpath : f.type = .pathReachable) :
    (f.ready = true ∧ ∃ hub s, err = .serviceNotFound hub s) ∨
      (f.ready = false ∧ ∃ e i, err = .chain (.unreachable e i)) := by
  cases err with
  | serviceNotFound hub s =>
    cases h
    rcases List.mem_cons.1 hf with rfl | hf
    · exact .inl ⟨rfl, hub, s, rfl⟩
    · cases List.mem_singleton.1 hf
      cases hpath
  | ports e =>
    cases h
    cases List.mem_singleton.1 hf
    cases hpath
  | chain cause =>
    cases cause with
    | unreachable e i =>
      cases h
      cases List.mem_singleton.1 hf
      exact .inr ⟨rfl, e, i, rfl⟩
    | shortWay way => cases h
    | endpoint cause => cases h

/-- Where a route came to, told by what is said about its path. -/
theorem outcome_path {m : Mapping} {w : World}
    {out : (RouteId × Route) × Except RouteError Resources} (h : out ∈ m.outcome w) :
    out.1 ∈ m.knownRoutes ∧
      (∀ r, out.2 = .ok r →
        Way.Passable w.fleet.gateway (m.way w) ∨ m.publishes w.fleet out.1.2 = []) ∧
      (∀ hub s, out.2 = .error (.serviceNotFound hub s) → m.publishes w.fleet out.1.2 = []) ∧
      (∀ e i, out.2 = .error (.chain (.unreachable e i)) →
        ¬ (Way.Passable w.fleet.gateway (m.way w) ∨ m.publishes w.fleet out.1.2 = [])) := by
  obtain ⟨hmem, w', ha, hr⟩ := mem_outcomes h
  have hread := reads_reading m w
  have hgateway : w'.fleet.gateway = w.fleet.gateway := by
    rw [ha.gateway, hread.fleet]
    rfl
  have hpublishes : (m.reading w).1.publishes w'.fleet out.1.2 = m.publishes w.fleet out.1.2 := by
    rw [publishes_agrees _ ha, publishes_reading]
  rw [← hgateway, ← hpublishes]
  exact ⟨hmem, fun r hok => passable_of_renderRoute (hr.trans hok),
    fun hub s herr => publishes_of_serviceNotFound (hr.trans herr),
    fun e i herr => not_passable_of_renderRoute (hr.trans herr)⟩

/-- A synchronization whose hubs are ready says that the path of a route is reachable if the
way is passable, or if the route publishes no port. -/
theorem sync_pathReachable (m : Mapping) (w : World) (hexporting : w.fleet.isReady m.exporting)
    (himporting : w.fleet.isReady m.importing) :
    (m.sync w).2.board = w.board.reportAll w.clock (m.reports w) ∧
      ∀ r ∈ m.reports w, r.1 ∈ m.knownRoutes ∧ ∀ f ∈ r.2.findings, f.type = .pathReachable →
        (f.ready = true ↔
          Way.Passable w.fleet.gateway (m.way w) ∨ m.publishes w.fleet r.1.2 = []) := by
  refine ⟨m.board_sync w, fun r hr => ?_⟩
  unfold reports at hr
  rw [hexporting, himporting] at hr
  rcases List.mem_append.1 hr with hr | hr
  · -- The route could not be rendered.
    obtain ⟨⟨e, result⟩, hout, hfailure⟩ := List.mem_filterMap.1 hr
    obtain ⟨hmem, -, hmissing, hunreachable⟩ := outcome_path hout
    cases result with
    | ok resources => cases hfailure
    | error err =>
      obtain ⟨fs, hfs, rfl⟩ := Option.map_eq_some_iff.1 hfailure
      refine ⟨hmem, fun f hf hpath => ?_⟩
      rw [findings_foldl_add, List.mem_append] at hf
      rcases hf with hf | hf
      · exact absurd hpath (m.common_silent w hf)
      · rcases errorFindings_path hfs hf hpath with ⟨hready, hub, s, rfl⟩ | ⟨hready, e', i, rfl⟩
        · exact iff_of_true hready (.inr (hmissing hub s rfl))
        · refine iff_of_false ?_ (hunreachable e' i rfl)
          rw [hready]
          exact Bool.false_ne_true
  · -- The route was rendered.
    split at hr
    · cases hr
    · obtain ⟨e, he, rfl⟩ := List.mem_map.1 hr
      obtain ⟨⟨e', result⟩, hout, hsuccess⟩ := List.mem_filterMap.1 he
      obtain ⟨hmem, hok, -, -⟩ := outcome_path hout
      cases result with
      | error err => cases hsuccess
      | ok resources =>
        cases hsuccess
        refine ⟨hmem, fun f hf hpath => ?_⟩
        rw [m.conclusion_path w hf hpath]
        exact iff_of_true rfl (hok resources rfl)

/-! ## A way that nobody can take -/

/-- Two hubs of which neither can be dialed, without a Service. -/
def apart : World where
  fleet := { Fleet.ofPool default with ready := ((∅ : SortedSet String).add "a").add "b" }
  board := (StatusBoard.ofCapacity 2).apply
    ⟨some "n", "r", ⟨⟨"a", ⟨"n", "s"⟩⟩, ⟨"b", ⟨"n", "s"⟩⟩⟩, none⟩
  counters := .empty
  journal := []
  clock := default

/-- A controller for a route from one of them to the other. -/
def hopeful : Mapping :=
  { ofPair "a" "b" "/key" with
    routes := [⟨some "n", "r", ⟨⟨"a", ⟨"n", "s"⟩⟩, ⟨"b", ⟨"n", "s"⟩⟩⟩, none⟩] }

/-- As long as the Service is unknown, the path is said to be reachable that is not. -/
theorem sync_hopeful :
    ((hopeful.sync apart).2.board.routes.get? ⟨"n", "r"⟩).map (·.isTrue .pathReachable) =
        some true ∧
      ¬ Way.Passable apart.fleet.gateway (hopeful.way apart) := by
  decide +kernel

/-- It is reported because the route publishes no port. -/
theorem sync_pathReachable_hopeful :
    apart.fleet.isReady "a" ∧ apart.fleet.isReady "b" ∧
      ∃ r ∈ hopeful.reports apart, ∃ f ∈ r.2.findings, f.type = .pathReachable ∧
        f.ready = true ∧ hopeful.publishes apart.fleet r.1.2 = [] := by
  have ha : apart.fleet.isReady hopeful.exporting := by decide +kernel
  have hb : apart.fleet.isReady hopeful.importing := by decide +kernel
  obtain ⟨-, htrue⟩ := sync_pathReachable hopeful apart ha hb
  obtain ⟨r, hr, f, hf, hpath, hready⟩ : ∃ r ∈ hopeful.reports apart, ∃ f ∈ r.2.findings,
      f.type = .pathReachable ∧ f.ready = true := by decide +kernel
  refine ⟨ha, hb, r, hr, f, hf, hpath, hready, ?_⟩
  exact (((htrue r hr).2 f hf hpath).1 hready).resolve_left (by decide +kernel)

end Mapping

end HubFederation
