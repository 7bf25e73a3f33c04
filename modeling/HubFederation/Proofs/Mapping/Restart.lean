import HubFederation.Proofs.Mapping.Recall
import HubFederation.Proofs.Way.Rounds

/-!
# A controller is started anew

A controller that knows nothing finds on the hubs what the one before it left. It has read it all
when it comes to rendering, bind ports included, so it renders the same and has to put right only
what is on hubs that it does not read.

* `cache_reading_anew`: what is cached once the hubs are read.
* `renders_anew`: what is rendered then.
* `sync_anew`: what the first synchronization does.
-/
namespace HubFederation.Mapping

/-- A controller of the same pair and the same routes that knows nothing yet. -/
def anew (m : Mapping) : Mapping := { m with cache := ∅, seeded := ∅ }

/-- Whether a hub is one of those that are read: it is on the way, and ready. -/
def visits (m : Mapping) (w : World) (hub : String) : Bool :=
  (m.way w).contains hub && w.fleet.isReady hub

/-- A synchronization gets to write, no call fails, and every route is rendered, of which no two
have one name. -/
structure Completes (m : Mapping) (w : World) : Prop where
  converges : m.Converges w
  untroubled : w.Untroubled (m.sync w).2
  rendered : (m.rendering w).rendered = m.knownRoutes.map (·.1)
  distinct : (m.knownRoutes.map (·.2.name)).Nodup

/-- `w'` is where a controller is started in the place of one that has synchronized in `w`: the hubs
are the same, with the ConfigMaps that are on them, but the bind ports of the importing hub are
forgotten. The hubs that are read can be listed. -/
structure Restarts (m : Mapping) (w w' : World) : Prop where
  agrees : (m.sync w).2.fleet.Agrees w'.fleet
  configMaps : w'.fleet.configMaps = (m.sync w).2.fleet.configMaps
  unbound : (w'.pool m.importing).bound = ∅
  listed : ∀ hub, m.visits w hub = true → w'.fleet.listFails hub = false

section
variable {m : Mapping} {w w' : World}

/-! ## What the controller before left -/

/-- Writing to hubs leaves bind ports alone. -/
theorem ports_sync (hc : m.Converges w) :
    (m.sync w).2.fleet.ports = (m.rendering w).world.fleet.ports := by
  rw [(sync_of_converges hc).2.1, (issued_converging m w).fleet]

theorem used_sync (hc : m.Converges w) (hu : (w.pool m.importing).Used) :
    ((m.sync w).2.pool m.importing).Used := by
  unfold World.pool at hu ⊢
  rw [ports_sync hc]
  exact (m.steps_rendering w).prepares.used hu

/-- What was rendered is on the hubs. -/
theorem left_of_completes (h : m.Mirrors w) (hs : m.Completes w) {hub name : String}
    {cm : ConfigMap} (hget : (m.rendering w).resources.get? hub name = some cm) :
    ∃ found, (m.sync w).2.fleet.configMaps.get? hub name = some found ∧ found.normalize = cm ∧
      m.labels.selects found.labelSet := by
  have hmirror := mirrors_sync h
  unfold Mirrors at hmirror
  rw [sync_of_untroubled hs.converges hs.untroubled] at hmirror
  obtain ⟨found, hf, hnorm, hl⟩ := hmirror.cached hub name cm hget
  exact ⟨found, hf, hnorm, m.labels_reading w ▸ hl⟩

theorem recorded_rendering (hc : m.Converges w) :
    (m.rendering w).resources.All (Recorded ((m.sync w).2.pool m.importing)) := by
  have hrecorded := recorded_renderAll (m.reading w).1 (m.way w)
    ((m.readiness w).withWay (m.way w)) (m.reading w).2
  rw [(importing_reading m w).1] at hrecorded
  unfold World.pool
  rw [ports_sync hc]
  exact hrecorded

theorem publishes_rendering (hs : m.Completes w) : ∀ e ∈ m.knownRoutes,
    ∀ peer ∈ m.publishes w.fleet e.2,
      (m.rendering w).resources.Publishes m.importing e.2.name peer := by
  obtain ⟨himporting, hroutes⟩ := importing_reading m w
  have hpublishes := publishes_renderAll (m.reading w).1 (m.way w)
    ((m.readiness w).withWay (m.way w)) (m.reading w).2
  rw [himporting, hroutes] at hpublishes
  intro e he peer hpeer
  rw [← publishes_reading] at hpeer
  exact hpublishes hs.distinct hs.rendered e he peer hpeer

/-! ## What the new controller reads -/

theorem Restarts.same (hr : m.Restarts w w') : w.fleet.Agrees w'.fleet := by
  have hsync : w.fleet.Agrees (m.sync w).2.fleet := by
    rw [fleet_sync]
    exact ⟨rfl, rfl, rfl, rfl⟩
  exact hsync.trans hr.agrees

theorem Restarts.isReady (hr : m.Restarts w w') : w'.fleet.isReady = w.fleet.isReady :=
  hr.same.isReady

theorem Restarts.way (hr : m.Restarts w w') : m.anew.way w' = m.way w :=
  m.anew.way_agrees hr.same

theorem visits_iff {hub : String} :
    m.visits w hub = true ↔ hub ∈ m.way w ∧ w.fleet.isReady hub = true := by
  unfold visits
  simp

theorem visits_importing (hc : m.Converges w) : m.visits w m.importing = true :=
  visits_iff.2 ⟨Way.importing_mem_solve .., hc.importing⟩

theorem seeded_reading_anew (hr : m.Restarts w w') {hub : String} (hv : m.visits w hub = true) :
    (m.anew.reading w').1.seeded.contains hub = true := by
  obtain ⟨hway, hready⟩ := visits_iff.1 hv
  refine seeded_seed_of_listed (m.anew.way w') ?_ ?_ (hr.listed hub hv)
  · rw [hr.way]
    exact hway
  · rw [← hr.isReady] at hready
    exact hready

theorem mirrors_reading_anew (h : m.Mirrors w) (hr : m.Restarts w w') :
    Mirror m.labels (m.sync w).2.fleet.configMaps (m.anew.reading w').1.cache
      (m.anew.reading w').1.seeded := by
  have hstart : m.anew.Mirrors w' := by
    refine Mirror.start ?_
    rw [hr.configMaps]
    exact (mirrors_sync h).named
  have hmirror := mirrors_reading hstart
  unfold Mirrors at hmirror
  rw [m.anew.labels_reading w', (reads_reading m.anew w').fleet] at hmirror
  simp only [hr.configMaps] at hmirror
  exact hmirror

/-- Once the hubs are read, everything is cached that the controller before rendered for them, and
nothing else. -/
theorem cache_reading_anew (h : m.Mirrors w) (hs : m.Completes w) (hr : m.Restarts w w')
    (hub name : String) : (m.anew.reading w').1.cache.get? hub name =
      if m.visits w hub then (m.rendering w).resources.get? hub name else none := by
  have hmirror := mirrors_reading_anew h hr
  by_cases hv : m.visits w hub = true
  · obtain ⟨hway, hready⟩ := visits_iff.1 hv
    rw [if_pos hv]
    ext cm
    rw [get?_rendering_iff h hs.converges hs.untroubled hway hready]
    constructor
    · intro hget
      obtain ⟨found, hf, hnorm, hl⟩ := hmirror.cached hub name cm hget
      exact ⟨found, hf, hl, hnorm⟩
    · rintro ⟨found, hf, hl, rfl⟩
      exact hmirror.seeded hub (seeded_reading_anew hr hv) name found hf hl
  · rw [if_neg hv]
    refine cache_seed_elsewhere (m.anew.way w') (fun hmem => ?_) name
    rw [hr.way] at hmem
    have hready : w.fleet.isReady hub = false := by
      rw [← Bool.not_eq_true]
      exact fun hready => hv (visits_iff.2 ⟨hmem, hready⟩)
    rw [← hr.isReady] at hready
    exact hready

/-- What is on record is bound once the hubs are read. -/
theorem recorded_reading_anew (h : m.Mirrors w) (hu : (w.pool m.importing).Used)
    (hs : m.Completes w) (hr : m.Restarts w w') (name : String) (cm : ConfigMap)
    (hget : (m.rendering w).resources.get? m.importing name = some cm) :
    Recorded ((m.anew.reading w').2.pool m.importing) cm := by
  obtain ⟨hway, hready⟩ := visits_iff.1 (visits_importing hs.converges)
  have hold : ((m.sync w).2.pool m.importing).OneToOne :=
    PortPool.oneToOne_of_used (used_sync hs.converges hu)
  -- What carries the labels on the importing hub was rendered, so the pool before had bound it.
  have hrecord : m.anew.OnRecord ((m.sync w).2.pool m.importing)
      (w'.count (·.synced m.anew.pair)) := by
    intro name found hf hl
    have hfound : (m.sync w).2.fleet.configMaps.get? m.importing name = some found := by
      rw [← hr.configMaps]
      exact hf
    have hrendered := (get?_rendering_iff h hs.converges hs.untroubled hway hready name
      found.normalize).2 ⟨found, hfound, hl, rfl⟩
    exact Recorded.normalize_iff.1 (recorded_rendering hs.converges _ _ _ hrendered)
  have hstart : Recalls ((m.sync w).2.pool m.importing) m.anew
      (w'.count (·.synced m.anew.pair)) := by
    exact ⟨PortPool.partOf_of_unbound hr.unbound _, fun hs => (nomatch hs)⟩
  have hrecalls : Recalls ((m.sync w).2.pool m.importing) (m.anew.reading w').1
      (m.anew.reading w').2 := recalls_seed hold (m.anew.way w') hrecord hstart
  have hread := hrecalls.recorded
  rw [(importing_reading m.anew w').1, m.anew.labels_reading w', (reads_reading m.anew w').fleet]
    at hread
  simp only [hr.configMaps] at hread
  obtain ⟨found, hf, rfl, hl⟩ := left_of_completes h hs hget
  have hseeded := seeded_reading_anew hr (visits_importing hs.converges)
  exact Recorded.normalize_iff.2 (hread hseeded name found hf hl)

/-- A port that is published has the bind port that it had. -/
theorem portOf?_reading_anew (h : m.Mirrors w) (hu : (w.pool m.importing).Used)
    (hs : m.Completes w) (hr : m.Restarts w w') : ∀ e ∈ m.knownRoutes,
    ∀ peer ∈ m.publishes w.fleet e.2, ∃ bind,
      ((m.sync w).2.pool m.importing).portOf? peer = some bind ∧
      ((m.anew.reading w').2.pool m.importing).portOf? peer = some bind := by
  intro e he peer hpeer
  have hpublishes := publishes_rendering hs e he peer hpeer
  refine hpublishes.bound (fun name cm hget => ?_) fun name cm hget => ?_
  · exact recorded_rendering hs.converges _ _ _ hget
  · exact recorded_reading_anew h hu hs hr name cm hget

/-! ## What the new controller renders -/

/-- The new controller renders what the one before did, and binds no port. -/
theorem renders_anew (h : m.Mirrors w) (hu : (w.pool m.importing).Used) (hs : m.Completes w)
    (hr : m.Restarts w w') : (m.rendering w).Echoes (m.anew.rendering w') (m.anew.reading w').2 := by
  have hagrees : (m.reading w).2.fleet.Agrees (m.anew.reading w').2.fleet := by
    rw [(reads_reading m w).fleet, (reads_reading m.anew w').fleet]
    exact ⟨hr.same.ready, hr.same.graph, hr.same.keys, hr.same.services⟩
  have hcontroller : (m.anew.reading w').1 = { (m.reading w).1 with
      cache := (m.anew.reading w').1.cache, seeded := (m.anew.reading w').1.seeded } := by
    rw [(reads_reading m w).mapping, (reads_reading m.anew w').mapping]
    rfl
  obtain ⟨himporting, hroutes⟩ := importing_reading m w
  -- The pools need not be equal: they agree about every port that is asked for.
  have hecho := renderAll_replay (m.reading w).1 (m.way w) ((m.readiness w).withWay (m.way w))
    ((m.anew.readiness w').withWay (m.anew.way w')) (m.anew.reading w').1.cache
    (m.anew.reading w').1.seeded hagrees ?_
  · rw [← hcontroller] at hecho
    unfold rendering
    rw [hr.way] at hecho ⊢
    exact hecho
  · rw [himporting, hroutes]
    intro e he peer hpeer
    rw [publishes_agrees _ hagrees, publishes_reading] at hpeer
    obtain ⟨bind, hold, hnew⟩ := portOf?_reading_anew h hu hs hr e he peer hpeer
    refine PortPool.answers_of_portOf? ?_ hnew
    unfold World.pool at hold ⊢
    rwa [ports_sync hs.converges] at hold

theorem converges_anew (h : m.Mirrors w) (hu : (w.pool m.importing).Used) (hs : m.Completes w)
    (hr : m.Restarts w w') : m.anew.Converges w' := by
  refine ⟨?_, ?_, (renders_anew h hu hs hr).frozen.trans hs.converges.built⟩
  · rw [hr.isReady]
    exact hs.converges.exporting
  · rw [hr.isReady]
    exact hs.converges.importing

/-! ## What the new controller does -/

/-- A controller may be started anew at any time after a synchronization that rendered every route
and of which no call failed. Its first synchronization gets to write, and deletes nothing. It
applies what was rendered for hubs that it does not read, because they are not on the way or not
ready; all of that is on these hubs as it is applied. And every port that is published has the bind
port that it had. -/
theorem sync_anew {exporting importing identityFile : String}
    (h : Reached exporting importing identityFile m w) (hu : (w.pool m.importing).Used)
    (hs : m.Completes w) (hr : m.Restarts w w') :
    m.anew.Converges w' ∧
    w'.callsTo (m.anew.sync w').2 = ((m.rendering w).resources.toList.filter fun e =>
      !m.visits w e.1).map (fun e => .apply e.1 e.2) ∧
    (∀ hub cm, .apply hub cm ∈ w'.callsTo (m.anew.sync w').2 →
      ∃ found, w'.fleet.configMaps.get? hub cm.key = some found ∧ found.normalize = cm) ∧
    ∀ e ∈ m.knownRoutes, ∀ peer ∈ m.publishes w.fleet e.2, ∃ bind,
      (m.sync w).2.fleet.ports.portOf? m.importing peer = some bind ∧
      ((m.anew.sync w').2.getPort none m.importing peer).2 = .ok bind := by
  have hmirrors := mirrors_of_reached h
  have hconverges := converges_anew hmirrors hu hs hr
  have hechoes := renders_anew hmirrors hu hs hr
  have hcalls : w'.callsTo (m.anew.sync w').2 = ((m.rendering w).resources.toList.filter fun e =>
      !m.visits w e.1).map (fun e => .apply e.1 e.2) := by
    rw [callsTo_sync hconverges, hechoes.resources]
    exact Resources.diff_of_part (m.visits w) (cache_reading_anew hmirrors hs hr)
  refine ⟨hconverges, hcalls, fun hub cm hmem => ?_, fun e he peer hpeer => ?_⟩
  · rw [hcalls] at hmem
    obtain ⟨⟨hub', cm'⟩, he, hcall⟩ := List.mem_map.1 hmem
    cases hcall
    have hget := Resources.mem_toList.1 (List.mem_filter.1 he).1
    obtain ⟨found, hf, hnorm, -⟩ := left_of_completes hmirrors hs hget
    rw [hr.configMaps]
    exact ⟨found, hf, hnorm⟩
  · obtain ⟨bind, hold, hnew⟩ := portOf?_reading_anew hmirrors hu hs hr e he peer hpeer
    have hports : (m.anew.sync w').2.fleet.ports = (m.anew.reading w').2.fleet.ports := by
      rw [ports_sync hconverges, hechoes.fleet]
    have hbound : (m.anew.sync w').2.fleet.ports.portOf? m.importing peer = some bind := by
      rw [hports]
      exact hnew
    refine ⟨bind, hold, ?_⟩
    unfold World.getPort
    rw [hbound]

end

/-! ## Hubs that are not read -/

/-- Two hubs that are joined by way of a third one that is not ready. What dials the exporting hub is
relayed by a fourth one, which is not on the way. -/
def relayed : World where
  fleet := { Fleet.ofPool default with
    ready := (((∅ : SortedSet String).add "a").add "b").add "x"
    graph := ⟨(((∅ : SortedMap String Gateway).insert "a"
      ⟨true, "a:22", [], ["c"], [], [.hub "x"]⟩).insert "c" ⟨true, "c:22", [], [], [], []⟩).insert
      "x" ⟨true, "x:22", [], [], [], []⟩, ∅⟩
    keys := ((∅ : SortedMap String String).insert "b" "key").insert "c" "key"
    services := (∅ : SortedMap (String × String × String) Service).insert ("a", "n", "s")
      ⟨.empty, [⟨none, none, 80, none⟩]⟩ }
  board := .ofCapacity 1
  counters := .empty
  journal := []
  clock := default

/-- The same hubs after a synchronization, with the bind ports forgotten. -/
def forgetful : World :=
  { (tunneled.sync relayed).2 with
    fleet := { (tunneled.sync relayed).2.fleet with ports := .ofPool default } }

theorem reached_relayed : Reached "a" "b" "/key" tunneled relayed := by
  have hstart : Reached "a" "b" "/key" (ofPair "a" "b" "/key") relayed :=
    .start fun _ _ _ hf => (nomatch hf)
  exact hstart.assign tunneled.routes

theorem completes_relayed : tunneled.Completes relayed where
  converges := ⟨by decide, by decide, by decide +kernel⟩
  untroubled := by decide +kernel
  rendered := by decide +kernel
  distinct := by decide

theorem restarts_relayed : tunneled.Restarts relayed forgetful := by
  have hfails : forgetful.fleet.listFails = relayed.fleet.listFails := by
    unfold forgetful
    simp only
    rw [fleet_sync]
    rfl
  refine ⟨⟨rfl, rfl, rfl, rfl⟩, rfl, rfl, fun hub _ => ?_⟩
  rw [hfails]
  rfl

/-- What is on the hub that is not ready, and on the one that is not on the way, is applied once
more. -/
theorem sync_anew_not_silent : Reached "a" "b" "/key" tunneled relayed ∧
    (relayed.pool tunneled.importing).Used ∧ tunneled.Completes relayed ∧
    tunneled.Restarts relayed forgetful ∧
    ∀ hub ∈ ["c", "x"], ∃ cm, cm.key = "r-allows-80-40000" ∧
      .apply hub cm ∈ forgetful.callsTo (tunneled.anew.sync forgetful).2 := by
  have hmirrors := mirrors_of_reached reached_relayed
  have hused : (relayed.pool tunneled.importing).Used := .unbound rfl
  have hconverges := converges_anew hmirrors hused completes_relayed restarts_relayed
  have hechoes := renders_anew hmirrors hused completes_relayed restarts_relayed
  have hrendered : ∀ hub ∈ ["c", "x"], tunneled.visits relayed hub = false ∧
      ((tunneled.rendering relayed).resources.get? hub "r-allows-80-40000").isSome = true := by
    decide +kernel
  refine ⟨reached_relayed, hused, completes_relayed, restarts_relayed, fun hub hmem => ?_⟩
  obtain ⟨hunread, hsome⟩ := hrendered hub hmem
  obtain ⟨cm, hcm⟩ := Option.isSome_iff_exists.1 hsome
  have hkey := Resources.key_of_get? hcm
  refine ⟨cm, hkey, ?_⟩
  rw [callsTo_sync hconverges, hechoes.resources, Resources.mem_diff]
  simp only [Call.hub, Call.name, Call.result, hkey]
  refine ⟨hcm, ?_⟩
  rw [cache_reading_anew hmirrors completes_relayed restarts_relayed, hunread]
  simp

/-- Nothing else is applied, and the port that is published has the bind port that it had. -/
theorem sync_anew_relayed : Reached "a" "b" "/key" tunneled relayed ∧
    (relayed.pool tunneled.importing).Used ∧ tunneled.Completes relayed ∧
    tunneled.Restarts relayed forgetful ∧ tunneled.anew.Converges forgetful ∧
    (∀ c ∈ forgetful.callsTo (tunneled.anew.sync forgetful).2,
      tunneled.visits relayed c.hub = false) ∧
    ((tunneled.anew.sync forgetful).2.getPort none "b" ⟨"a", "n", "s", 80⟩).2 = .ok 40000 := by
  have hused : (relayed.pool tunneled.importing).Used := .unbound rfl
  obtain ⟨hconverges, hcalls, -, hports⟩ :=
    sync_anew reached_relayed hused completes_relayed restarts_relayed
  have hpublished : ∀ route ∈ tunneled.routes, (⟨"n", "r"⟩, route) ∈ tunneled.knownRoutes ∧
      ⟨"a", "n", "s", 80⟩ ∈ tunneled.publishes relayed.fleet route := by decide +kernel
  have hbound : (tunneled.sync relayed).2.fleet.ports.portOf? "b" ⟨"a", "n", "s", 80⟩ =
      some 40000 := by decide +kernel
  obtain ⟨hknown, hpublishes⟩ := hpublished _ (List.mem_cons_self ..)
  obtain ⟨bind, hold, hnew⟩ := hports _ hknown _ hpublishes
  cases hold.symm.trans hbound
  have hunread : ∀ c ∈ forgetful.callsTo (tunneled.anew.sync forgetful).2,
      tunneled.visits relayed c.hub = false := by
    intro c hc
    rw [hcalls] at hc
    obtain ⟨e, he, rfl⟩ := List.mem_map.1 hc
    simpa [Call.hub] using (List.mem_filter.1 he).2
  exact ⟨reached_relayed, hused, completes_relayed, restarts_relayed, hconverges, hunread, hnew⟩

end HubFederation.Mapping
