import HubFederation.Proofs.Mapping.Replay

/-!
# The phases of a synchronization

A synchronization reads hubs, renders routes and writes to hubs, in this order, and each
phase starts from what the one before left.

* `sync_of_converges`: a synchronization that gets to write is its three phases.
* `sync_of_not_converges`: any other one does nothing, or stops after the second phase.
* `seed_of_seeded`: nothing is read where every hub that is ready was read before.
-/
namespace HubFederation.Mapping

/-- The controller and the world once the hubs of the way are read. -/
def reading (m : Mapping) (w : World) : Mapping × World :=
  m.seed (w.count (·.synced m.pair)) (m.way w)

/-- What comes of rendering the routes. -/
def rendering (m : Mapping) (w : World) : Rendering :=
  (m.reading w).1.renderAll (m.way w) ((m.readiness w).withWay (m.way w)) (m.reading w).2

/-- What comes of writing to the hubs. -/
def converging (m : Mapping) (w : World) : Progress :=
  (m.reading w).1.converge (m.rendering w).world (m.rendering w).resources

/-- A synchronization gets to write: both hubs are ready, and every chain can be built. -/
structure Converges (m : Mapping) (w : World) : Prop where
  exporting : w.fleet.isReady m.exporting = true
  importing : w.fleet.isReady m.importing = true
  built : (m.rendering w).frozen = false

/-- A synchronization is its phases, up to the one that stops it. -/
theorem sync_eq (m : Mapping) (w : World) : m.sync w =
    if !(w.fleet.isReady m.exporting && w.fleet.isReady m.importing) then
      (m, (m.knownRoutes.foldl (fun w' e => w'.report e.1 (m.readiness w))
        (w.count (·.synced m.pair))).count (·.syncFailed m.pair))
    else if (m.rendering w).frozen then
      ((m.reading w).1, (m.rendering w).world.count (·.syncFailed (m.reading w).1.pair))
    else
      ((m.converging w).mapping,
        (m.rendering w).rendered.foldl
          (fun w' id => w'.report id ((m.reading w).1.renderedReport (m.way w)
            ((m.readiness w).withWay (m.way w)) (m.converging w).failed))
          (if (m.converging w).failed
            then (m.converging w).world.count (·.syncFailed (m.reading w).1.pair)
            else (m.converging w).world)) := rfl

theorem fleet_reports (report : Report) (ids : List RouteId) (w : World) :
    (ids.foldl (fun w id => w.report id report) w).fleet = w.fleet := by
  induction ids generalizing w with
  | nil => rfl
  | cons id ids ih => exact ih (w.report id report)

theorem journal_reports (report : Report) (ids : List RouteId) (w : World) :
    (ids.foldl (fun w id => w.report id report) w).journal = w.journal := by
  induction ids generalizing w with
  | nil => rfl
  | cons id ids ih => exact ih (w.report id report)

/-- A synchronization that waits for a hub does nothing but report. -/
theorem sync_of_not_ready {m : Mapping} {w : World}
    (h : (w.fleet.isReady m.exporting && w.fleet.isReady m.importing) = false) :
    (m.sync w).1 = m ∧ (m.sync w).2.fleet = w.fleet := by
  rw [sync_eq, h]
  refine ⟨rfl, ?_⟩
  have hreports := fleet_reports (m.readiness w) (m.knownRoutes.map (·.1))
    (w.count (·.synced m.pair))
  rwa [List.foldl_map] at hreports

/-- A synchronization that waits for a hub makes no call. -/
theorem journal_of_not_ready {m : Mapping} {w : World}
    (h : (w.fleet.isReady m.exporting && w.fleet.isReady m.importing) = false) :
    (m.sync w).2.journal = w.journal := by
  have hreports := journal_reports (m.readiness w) (m.knownRoutes.map (·.1))
    (w.count (·.synced m.pair))
  rw [List.foldl_map] at hreports
  rw [sync_eq, h]
  exact hreports

/-- A synchronization that cannot build a chain keeps what it read. -/
theorem sync_of_frozen {m : Mapping} {w : World}
    (h : (w.fleet.isReady m.exporting && w.fleet.isReady m.importing) = true)
    (hf : (m.rendering w).frozen = true) :
    (m.sync w).1 = (m.reading w).1 ∧ (m.sync w).2.fleet = (m.rendering w).world.fleet := by
  rw [sync_eq, h, hf]
  exact ⟨rfl, rfl⟩

/-- Writing makes the calls of the difference between what is cached once the hubs are read
and what is rendered. -/
theorem issued_converging (m : Mapping) (w : World) :
    Issued ⟨(m.reading w).1, (m.rendering w).world, false⟩
      ((m.reading w).1.cache.diff (m.rendering w).resources) (m.converging w) :=
  issued_converge (m.reading w).1 (m.rendering w).world (m.rendering w).resources

/-- A synchronization that gets to write leaves what writing left, but for reports and
counters. -/
theorem sync_of_converges {m : Mapping} {w : World} (h : m.Converges w) :
    (m.sync w).1 = (m.converging w).mapping ∧
      (m.sync w).2.fleet = (m.converging w).world.fleet ∧
      (m.sync w).2.journal = (m.converging w).world.journal := by
  rw [sync_eq, h.exporting, h.importing, h.built]
  generalize m.converging w = p
  refine ⟨rfl, (fleet_reports _ _ _).trans ?_, (journal_reports _ _ _).trans ?_⟩
  · cases p.failed <;> rfl
  · cases p.failed <;> rfl

/-- A synchronization that does not get to write waits for a hub, or stops at a chain that cannot
be built. -/
theorem sync_of_not_converges {m : Mapping} {w : World} (h : ¬ m.Converges w) :
    ((m.sync w).1 = m ∧ (m.sync w).2.fleet = w.fleet ∧ (m.sync w).2.journal = w.journal) ∨
      ((m.sync w).1 = (m.reading w).1 ∧ (m.sync w).2.fleet = (m.rendering w).world.fleet ∧
        (m.sync w).2.journal = (m.rendering w).world.journal) := by
  cases hready : w.fleet.isReady m.exporting && w.fleet.isReady m.importing with
  | false =>
    exact .inl ⟨(sync_of_not_ready hready).1, (sync_of_not_ready hready).2,
      journal_of_not_ready hready⟩
  | true =>
    cases hfrozen : (m.rendering w).frozen with
    | true =>
      refine .inr ⟨(sync_of_frozen hready hfrozen).1, (sync_of_frozen hready hfrozen).2, ?_⟩
      rw [sync_eq, hready, hfrozen]
      rfl
    | false =>
      rw [Bool.and_eq_true] at hready
      exact absurd ⟨hready.1, hready.2, hfrozen⟩ h

/-! ## Hubs that were read before -/

/-- Nothing is read where every hub that is ready was read before. -/
theorem seed_of_seeded {m : Mapping} {w : World} {way : List String}
    (h : ∀ hub ∈ way, w.fleet.isReady hub → m.seeded.contains hub) : m.seed w way = (m, w) := by
  induction way with
  | nil => rfl
  | cons hub rest ih =>
    have hhub : (m.seeded.contains hub || !w.fleet.isReady hub) = true := by
      cases hr : w.fleet.isReady hub with
      | false => simp
      | true => simp [h hub (List.mem_cons_self ..) hr]
    unfold seed
    rw [List.foldl_cons, seedHub]
    simp only [hhub, if_true]
    exact ih fun hub' h' => h hub' (List.mem_cons_of_mem _ h')

end HubFederation.Mapping
