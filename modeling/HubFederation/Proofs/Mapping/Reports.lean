import HubFederation.Proofs.Mapping.Reading

/-!
# What a synchronization reports

A synchronization that waits for a hub reports that about every route. Any other one
reports about a route as soon as it cannot be rendered, and about the rendered ones at the
end, unless a chain could not be built.

* `outcomes`: what came of rendering each route.
* `board_sync`: a synchronization makes `reports`, in this order, and tells the board
  nothing else.
-/
namespace HubFederation

/-- A route with what it is known by, and what is said about it. -/
abbrev RouteReport := (RouteId × Route) × Report

/-- Takes reports in, in order. -/
def StatusBoard.reportAll (b : StatusBoard) (now : Timestamp) (rs : List RouteReport) :
    StatusBoard :=
  rs.foldl (fun b r => b.report now r.1.1 r.2) b

theorem StatusBoard.reportAll_append (b : StatusBoard) (now : Timestamp)
    (rs rs' : List RouteReport) :
    b.reportAll now (rs ++ rs') = (b.reportAll now rs).reportAll now rs' :=
  List.foldl_append

namespace World

/-- `w'` tells the board nothing that `w` did not, at the same time. -/
structure Unreported (w w' : World) : Prop where
  board : w'.board = w.board
  clock : w'.clock = w.clock

theorem Unreported.refl (w : World) : Unreported w w := ⟨rfl, rfl⟩

theorem Unreported.trans {w w' w'' : World} (h : Unreported w w') (h' : Unreported w' w'') :
    Unreported w w'' :=
  ⟨h'.board.trans h.board, h'.clock.trans h.clock⟩

/-- Reports that are made one after the other. -/
theorem reports_foldl (rs : List RouteReport) (w : World) :
    rs.foldl (fun w r => w.report r.1.1 r.2) w =
      { w with board := w.board.reportAll w.clock rs } := by
  induction rs generalizing w with
  | nil => rfl
  | cons r rs ih => exact ih (w.report r.1.1 r.2)

end World

namespace Mapping

/-! ## Phases that report nothing -/

theorem Steps.unreported {pair : String × String} {allowed : Step → Prop} {w w' : World}
    (h : Steps pair allowed w w') (hsilent : ∀ s, allowed s → s.Silent) :
    World.Unreported w w' := by
  refine h.related .refl .trans fun s hs w => ?_
  cases s with
  | count _ | listed _ | listFailed _ | load _ => exact ⟨rfl, rfl⟩
  | get peer =>
    change World.Unreported w (w.getPort (some pair) pair.2 peer).1
    unfold World.getPort
    split
    · exact .refl w
    · split <;> exact ⟨rfl, rfl⟩
  | report _ _ => cases hsilent _ hs

/-! ## Routes one after the other -/

/-- What comes of rendering routes one after the other, after what `s` holds. -/
def outcomes (m : Mapping) (way : List String) (base : Report) :
    Rendering → List (RouteId × Route) → List ((RouteId × Route) × Except RouteError Resources)
  | _, [] => []
  | s, e :: es =>
    (e, (m.renderRoute way e.2 s.world).2) :: outcomes m way base (m.renderOne way base s e) es

/-- What is said at once about a route that could not be rendered. -/
def failure? (way : List String) (base : Report) :
    (RouteId × Route) × Except RouteError Resources → Option RouteReport
  | (e, .error err) => (errorFindings way err).map fun fs => (e, fs.foldl Report.add base)
  | (_, .ok _) => none

/-- A route that could be rendered. -/
def success? : (RouteId × Route) × Except RouteError Resources → Option (RouteId × Route)
  | (e, .ok _) => some e
  | (_, .error _) => none

/-- Whether an outcome keeps the pair from touching the hubs. -/
def freezes : (RouteId × Route) × Except RouteError Resources → Bool
  | (_, .error err) => err.freezes
  | (_, .ok _) => false

/-- What a rendering holds after one more route. -/
theorem renderOne_eq (m : Mapping) (way : List String) (base : Report) (s : Rendering)
    (e : RouteId × Route) :
    let out := (e, (m.renderRoute way e.2 s.world).2)
    (m.renderOne way base s e).world.board =
        s.world.board.reportAll s.world.clock (failure? way base out).toList ∧
      (m.renderOne way base s e).world.clock = s.world.clock ∧
      (m.renderOne way base s e).rendered = s.rendered ++ ((success? out).map (·.1)).toList ∧
      (m.renderOne way base s e).frozen = (s.frozen || freezes out) := by
  have h := (m.steps_renderRoute way e.2 s.world fun _ h => h).unreported fun _ => Step.Asks.silent
  unfold renderOne
  cases hr : m.renderRoute way e.2 s.world with
  | mk w r =>
    rw [hr] at h
    cases r with
    | ok resources => exact ⟨h.board, h.clock, rfl, (Bool.or_false _).symm⟩
    | error err =>
      simp only [failure?, success?, freezes]
      cases errorFindings way err with
      | none => exact ⟨h.board, h.clock, (List.append_nil _).symm, trivial⟩
      | some fs =>
        refine ⟨?_, h.clock, (List.append_nil _).symm, trivial⟩
        change w.board.report w.clock _ _ = _
        rw [h.board, h.clock]
        rfl

/-- What a rendering holds after more routes. -/
theorem renderFold_eq (m : Mapping) (way : List String) (base : Report)
    (es : List (RouteId × Route)) (s : Rendering) :
    (es.foldl (m.renderOne way base) s).world.board = s.world.board.reportAll s.world.clock
        ((m.outcomes way base s es).filterMap (failure? way base)) ∧
      (es.foldl (m.renderOne way base) s).world.clock = s.world.clock ∧
      (es.foldl (m.renderOne way base) s).rendered =
        s.rendered ++ ((m.outcomes way base s es).filterMap success?).map (·.1) ∧
      (es.foldl (m.renderOne way base) s).frozen =
        (s.frozen || (m.outcomes way base s es).any freezes) := by
  induction es generalizing s with
  | nil => exact ⟨rfl, rfl, (List.append_nil _).symm, (Bool.or_false _).symm⟩
  | cons e es ih =>
    obtain ⟨hboard, hclock, hrendered, hfrozen⟩ := m.renderOne_eq way base s e
    obtain ⟨hboard', hclock', hrendered', hfrozen'⟩ := ih (m.renderOne way base s e)
    rw [List.foldl_cons, hboard', hclock', hrendered', hfrozen', hboard, hclock, hrendered, hfrozen,
      outcomes, ← StatusBoard.reportAll_append]
    refine ⟨?_, rfl, ?_, by rw [List.any_cons, Bool.or_assoc]⟩
    · rw [List.filterMap_cons]
      cases failure? way base (e, (m.renderRoute way e.2 s.world).2) <;> rfl
    · rw [List.filterMap_cons]
      cases success? (e, (m.renderRoute way e.2 s.world).2) <;> simp

/-- An outcome is what came of rendering a known route, on hubs as they were in the
beginning. -/
theorem mem_outcomes {m : Mapping} {way : List String} {base : Report} {s : Rendering}
    {es : List (RouteId × Route)} {out : (RouteId × Route) × Except RouteError Resources}
    (h : out ∈ m.outcomes way base s es) :
    out.1 ∈ es ∧
      ∃ w', s.world.fleet.Agrees w'.fleet ∧ (m.renderRoute way out.1.2 w').2 = out.2 := by
  induction es generalizing s with
  | nil => cases h
  | cons e es ih =>
    rcases List.mem_cons.1 h with rfl | h
    · exact ⟨List.mem_cons_self .., s.world, ⟨rfl, rfl, rfl, rfl⟩, rfl⟩
    · obtain ⟨hmem, w', ha, hr⟩ := ih h
      have hone := (m.allocates_renderOne way base s e).agrees
      exact ⟨List.mem_cons_of_mem _ hmem, w', hone.trans ha, hr⟩

/-! ## All reports -/

/-- What a report says about every route of a pair whose hubs are ready. -/
def common (m : Mapping) (w : World) : Report := (m.readiness w).withWay (m.way w)

/-- What comes of rendering each route. -/
def outcome (m : Mapping) (w : World) : List ((RouteId × Route) × Except RouteError Resources) :=
  (m.reading w).1.outcomes (m.way w) (m.common w) ⟨(m.reading w).2, ∅, [], false⟩ m.knownRoutes

/-- What is said at the end about the routes that were rendered. -/
def conclusion (m : Mapping) (w : World) : Report :=
  m.renderedReport (m.way w) (m.common w) (m.converging w).failed

/-- Everything that a synchronization reports, in order. -/
def reports (m : Mapping) (w : World) : List RouteReport :=
  if !(w.fleet.isReady m.exporting && w.fleet.isReady m.importing) then
    m.knownRoutes.map fun e => (e, m.readiness w)
  else
    (m.outcome w).filterMap (failure? (m.way w) (m.common w)) ++
      if (m.outcome w).any freezes then []
      else ((m.outcome w).filterMap success?).map fun e => (e, m.conclusion w)

theorem rendering_eq (m : Mapping) (w : World) :
    (m.rendering w).world.board =
        w.board.reportAll w.clock ((m.outcome w).filterMap (failure? (m.way w) (m.common w))) ∧
      (m.rendering w).world.clock = w.clock ∧
      (m.rendering w).rendered = ((m.outcome w).filterMap success?).map (·.1) ∧
      (m.rendering w).frozen = (m.outcome w).any freezes := by
  have hread := (m.steps_reading w).unreported fun _ => Step.Reads.silent
  obtain ⟨hboard, hclock, hrendered, hfrozen⟩ := (m.reading w).1.renderFold_eq (m.way w)
    (m.common w) m.knownRoutes ⟨(m.reading w).2, ∅, [], false⟩
  rw [show m.rendering w = m.knownRoutes.foldl ((m.reading w).1.renderOne (m.way w) (m.common w))
    ⟨(m.reading w).2, ∅, [], false⟩ by rw [← (m.importing_reading w).2]; rfl]
  refine ⟨?_, hclock.trans hread.clock, hrendered, hfrozen⟩
  rw [hboard, hread.board, hread.clock]
  rfl

/-- A synchronization makes its reports and tells the board nothing else. -/
theorem board_sync (m : Mapping) (w : World) :
    (m.sync w).2.board = w.board.reportAll w.clock (m.reports w) := by
  rw [sync_eq]
  unfold reports
  split
  · have h := World.reports_foldl (m.knownRoutes.map fun e => (e, m.readiness w))
      (w.count (·.synced m.pair))
    rw [List.foldl_map] at h
    simp only [h]
    rfl
  · obtain ⟨hboard, hclock, hrendered, hfrozen⟩ := m.rendering_eq w
    rw [hfrozen]
    split
    · rw [List.append_nil, ← hboard]
      rfl
    · have hconv := m.issued_converging w
      have h (w' : World) := World.reports_foldl
        (((m.outcome w).filterMap success?).map fun e => (e, m.conclusion w)) w'
      have hreport : (m.reading w).1.renderedReport (m.way w) ((m.readiness w).withWay (m.way w))
          (m.converging w).failed = m.conclusion w := by
        unfold conclusion renderedReport
        rw [(m.importing_reading w).1]
        rfl
      rw [hrendered, hreport, StatusBoard.reportAll_append, ← hboard, ← hclock, ← hconv.board,
        ← hconv.clock, List.foldl_map]
      simp only [List.foldl_map] at h
      rw [h]
      generalize m.conclusion w = report
      generalize m.converging w = p
      cases p.failed <;> rfl

end Mapping

end HubFederation
