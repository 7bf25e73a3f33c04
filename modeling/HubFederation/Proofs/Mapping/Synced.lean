import HubFederation.Proofs.Mapping.Path
import HubFederation.Proofs.Mapping.Seeding
import HubFederation.Proofs.Status.Verdicts

/-!
# What is reported about being synchronized

`RouteSynced` is about the last synchronization: whether it rendered the route and all its
calls worked. A synchronization gives that verdict on every route but one that got no bind
port. What such a route published is deleted, but nothing is said about it, so the verdict of
an earlier synchronization stays.

* `tells_sync`: the verdict of a synchronization is what the board tells from then on.
* `tells_run`: what the board tells after any run, whatever happens in between.
* `overbooked_stays_synced`: a route that was withdrawn and is said to be synchronized.
-/
namespace HubFederation

/-! ## Reports one after the other -/

/-- What a report on a route says last about a type. -/
def RouteReport.verdict? (type : ConditionType) (id : RouteId) (r : RouteReport) : Option Bool :=
  if r.1.1 = id then r.2.verdict? type else none

theorem StatusBoard.tells_reportAll (b : StatusBoard) (now : Timestamp) (rs : List RouteReport)
    (type : ConditionType) (id : RouteId) :
    (b.reportAll now rs).tells type id = (b.tells type id).map
      (rs.filterMap (RouteReport.verdict? type id)).getLast?.getD := by
  induction rs generalizing b with
  | nil => cases h : b.tells type id <;> exact h
  | cons r rs ih =>
    have hcons : b.reportAll now (r :: rs) = (b.report now r.1.1 r.2).reportAll now rs := rfl
    rw [hcons, ih, tells_report, List.filterMap_cons]
    unfold RouteReport.verdict?
    by_cases hid : id = r.1.1
    · rw [if_pos hid, if_pos hid.symm, Option.map_map]
      cases r.2.verdict? type with
      | none => rfl
      | some v =>
        simp only [List.getLast?_cons]
        rfl
    · rw [if_neg hid, if_neg (Ne.symm hid)]

namespace Mapping

variable {m : Mapping} {w : World} {id : RouteId}

/-! ## The verdict of a synchronization -/

/-- What comes of rendering a route. -/
abbrev Outcome := (RouteId × Route) × Except RouteError Resources

/-- The route was rendered. -/
def renders (id : RouteId) (out : Outcome) : Bool := out.1.1 = id && (success? out).isSome

/-- The route has no Service. -/
def misses (id : RouteId) : Outcome → Bool
  | (e, .error (.serviceNotFound ..)) => e.1 = id
  | _ => false

/-- What a synchronization finds about a route being synchronized, if it says so. -/
def verdict? (m : Mapping) (w : World) (id : RouteId) : Option Bool :=
  if !(w.fleet.isReady m.exporting && w.fleet.isReady m.importing) then none
  else if !(m.rendering w).frozen && (m.outcome w).any (renders id) then
    some !(m.converging w).failed
  else if (m.outcome w).any (misses id) then some false
  else none

/-- What is said about every route is about the two hubs. -/
theorem readiness_silent (m : Mapping) (w : World) :
    (m.readiness w).findings.filter (·.type = .routeSynced) = [] := by
  refine List.filter_eq_nil_iff.2 fun f hf => ?_
  have hfindings : (m.readiness w).findings =
      [hubFinding .exportHubReady m.exporting (w.fleet.isReady m.exporting),
        hubFinding .importHubReady m.importing (w.fleet.isReady m.importing)] := rfl
  rw [hfindings] at hf
  unfold hubFinding at hf
  simp only [List.mem_cons, List.not_mem_nil, or_false] at hf
  rcases hf with rfl | rfl <;> split <;> exact Bool.false_ne_true

/-- What is said about a rendered route in the end. -/
theorem verdict_conclusion (m : Mapping) (w : World) :
    (m.conclusion w).verdict? .routeSynced = some !(m.converging w).failed := by
  have hall : (m.conclusion w).findings = (m.readiness w).findings ++
      [portsFinding m.importing, pathFinding (m.way w), syncedFinding (m.converging w).failed] := by
    simp [conclusion, renderedReport, Report.add, common, Report.withWay]
  unfold Report.verdict?
  rw [hall, List.filter_append, readiness_silent]
  cases (m.converging w).failed <;> rfl

/-- What is said at once about a route that could not be rendered. -/
theorem verdict_failure (m : Mapping) (w : World) (id : RouteId) (out : Outcome) :
    (failure? (m.way w) (m.common w) out).bind (RouteReport.verdict? .routeSynced id) =
      if misses id out then some false else none := by
  obtain ⟨e, result⟩ := out
  have hsays (fs : List Finding) : ((fs.foldl Report.add (m.common w)).verdict? .routeSynced) =
      (fs.filter (·.type = .routeSynced)).getLast?.map (·.ready) := by
    unfold Report.verdict?
    rw [findings_foldl_add, List.filter_append, show (m.common w).findings =
      (m.readiness w).findings from rfl, readiness_silent, List.nil_append]
  cases result with
  | ok resources => rfl
  | error err =>
    simp only [failure?]
    cases err with
    | serviceNotFound hub s =>
      simp only [errorFindings, Option.map_some, Option.bind_some, RouteReport.verdict?, hsays,
        misses, decide_eq_true_eq]
      rfl
    | ports e =>
      simp only [errorFindings, Option.map_some, Option.bind_some, RouteReport.verdict?, hsays]
      split <;> rfl
    | chain cause =>
      cases cause with
      | unreachable e i =>
        simp only [errorFindings, Option.map_some, Option.bind_some, RouteReport.verdict?, hsays]
        split <;> rfl
      | shortWay way => rfl
      | endpoint cause => rfl

/-- The last of some verdicts that are all the same. -/
theorem getLast?_filterMap_of_same {α : Type} {f : α → Option Bool} {p : α → Bool} {v : Bool}
    (h : ∀ a, f a = if p a then some v else none) (as : List α) :
    (as.filterMap f).getLast? = if as.any p then some v else none := by
  induction as with
  | nil => rfl
  | cons a as ih =>
    rw [List.filterMap_cons, h]
    cases hp : p a with
    | false =>
      rw [List.any_cons, hp, Bool.false_or]
      exact ih
    | true =>
      rw [List.any_cons, hp, Bool.true_or]
      simp only [if_true, List.getLast?_cons, ih]
      split <;> rfl

theorem verdict_success (m : Mapping) (w : World) (id : RouteId) (out : Outcome) :
    (success? out).bind (RouteReport.verdict? .routeSynced id ∘ fun e => (e, m.conclusion w)) =
      if renders id out then some !(m.converging w).failed else none := by
  obtain ⟨e, result⟩ := out
  cases result with
  | error err => simp [success?, renders]
  | ok resources => simp [success?, renders, RouteReport.verdict?, verdict_conclusion]

theorem verdict_reports (m : Mapping) (w : World) (id : RouteId) :
    ((m.reports w).filterMap (RouteReport.verdict? .routeSynced id)).getLast? = m.verdict? w id := by
  unfold reports verdict?
  split
  · have hnone : (m.knownRoutes.map fun e => ((e, m.readiness w) : RouteReport)).filterMap
        (RouteReport.verdict? .routeSynced id) = [] := by
      refine List.filterMap_eq_nil_iff.2 fun r hr => ?_
      obtain ⟨e, -, rfl⟩ := List.mem_map.1 hr
      simp [RouteReport.verdict?, Report.verdict?, readiness_silent]
    rw [hnone, List.getLast?_nil]
  · obtain ⟨-, -, -, hfrozen⟩ := m.rendering_eq w
    rw [hfrozen, List.filterMap_append, List.filterMap_filterMap, List.getLast?_append,
      getLast?_filterMap_of_same (m.verdict_failure w id)]
    cases (m.outcome w).any freezes with
    | true => rfl
    | false =>
      rw [if_neg Bool.false_ne_true, List.filterMap_map, List.filterMap_filterMap,
        getLast?_filterMap_of_same (m.verdict_success w id)]
      cases (m.outcome w).any (renders id) <;> rfl

/-- The verdict of a synchronization is what the board tells from then on. -/
theorem tells_sync (m : Mapping) (w : World) (id : RouteId) :
    (m.sync w).2.board.tells .routeSynced id =
      (w.board.tells .routeSynced id).map (m.verdict? w id).getD := by
  rw [board_sync, StatusBoard.tells_reportAll, verdict_reports]

/-! ## What the verdict means -/

/-- The route got no bind port, whenever it was to be rendered. -/
def Starved (m : Mapping) (w : World) (id : RouteId) : Prop :=
  ∀ out ∈ m.outcome w, out.1.1 = id → ∃ e, out.2 = .error (.ports e)

/-- No call of a synchronization that would change a hub fails. -/
def Served (m : Mapping) (w : World) : Prop :=
  ∀ c ∈ w.callsTo (m.sync w).2, w.fleet.writeFails c.hub c.name = false

theorem any_renders (m : Mapping) (w : World) (id : RouteId) :
    (m.outcome w).any (renders id) = true ↔ id ∈ (m.rendering w).rendered := by
  rw [(m.rendering_eq w).2.2.1, List.any_eq_true]
  constructor
  · rintro ⟨⟨e, result⟩, hmem, hrenders⟩
    unfold renders at hrenders
    rw [Bool.and_eq_true, decide_eq_true_iff, Option.isSome_iff_exists] at hrenders
    obtain ⟨rfl, e', hsuccess⟩ := hrenders
    refine List.mem_map.2 ⟨e', List.mem_filterMap.2 ⟨_, hmem, hsuccess⟩, ?_⟩
    cases result <;> cases hsuccess
    rfl
  · intro hid
    obtain ⟨e, he, rfl⟩ := List.mem_map.1 hid
    obtain ⟨⟨e', result⟩, hmem, hsuccess⟩ := List.mem_filterMap.1 he
    refine ⟨_, hmem, ?_⟩
    cases result <;> cases hsuccess
    simp [renders, success?]

theorem failed_converging (hc : m.Converges w) :
    (m.converging w).failed = false ↔ m.Served w := by
  unfold Served
  rw [callsTo_sync hc, (m.issued_converging w).failed, Bool.false_or, List.any_eq_false,
    show (m.rendering w).world.fleet.writeFails = w.fleet.writeFails by rw [fleet_rendering]; rfl]
  simp only [Bool.not_eq_true]

/-- A route that does not keep the pair from the hubs is rendered, or has no Service, or got no
bind port. -/
theorem starved_iff {out : Outcome} (h : freezes out = false) (id : RouteId) :
    (out.1.1 = id → ∃ e, out.2 = .error (.ports e)) ↔
      renders id out = false ∧ misses id out = false := by
  obtain ⟨e, result⟩ := out
  cases result with
  | ok resources => simp [renders, misses, success?]
  | error err =>
    cases err with
    | serviceNotFound hub s => simp [renders, misses, success?]
    | ports e => simp [renders, misses, success?]
    | chain cause => cases h

/-- A synchronization that gets to write says of a route that it is synchronized if it was
rendered and no call failed, and says nothing if the route got no bind port. -/
theorem verdict_of_converges (hc : m.Converges w) (id : RouteId) :
    (m.verdict? w id = some true ↔ id ∈ (m.rendering w).rendered ∧ m.Served w) ∧
      (m.verdict? w id = none ↔ m.Starved w id) := by
  have hchain : ∀ out ∈ m.outcome w, freezes out = false := by
    have hfrozen := (m.rendering_eq w).2.2.2
    rw [hc.built] at hfrozen
    simpa using hfrozen.symm
  have hstarved : m.Starved w id ↔ (m.outcome w).any (renders id) = false ∧
      (m.outcome w).any (misses id) = false := by
    rw [List.any_eq_false, List.any_eq_false, ← forall₂_and]
    refine forall₂_congr fun out hout => ?_
    rw [starved_iff (hchain out hout) id, Bool.not_eq_true, Bool.not_eq_true]
  rw [← any_renders, ← failed_converging hc, hstarved]
  unfold verdict?
  rw [hc.exporting, hc.importing, hc.built]
  cases (m.outcome w).any (renders id) <;> cases (m.outcome w).any (misses id) <;>
    cases (m.converging w).failed <;> simp

/-! ## Runs -/

/-- What happens before a synchronization. Routes are assigned, and anything may become of the
hubs: of what they declare, of their services and bind ports, of the calls that they refuse. A
route that is deleted and applied anew begins a run of its own. -/
structure Round (id : RouteId) where
  routes : List Route
  fleet : Fleet → Fleet
  clock : Timestamp
  /-- What becomes of the board. -/
  board : StatusBoard → StatusBoard
  /-- Nobody else tells whether the route is synchronized. -/
  silent : ∀ b holds, b.tells .routeSynced id = some holds →
    (board b).tells .routeSynced id = some holds

/-- A round in which the board goes through `deeds`, at a desk where `sending` is being written.
Anything can be done there but reporting on the synchronization of the route and deleting it. -/
def Round.ofDeeds (routes : List Route) (fleet : Fleet → Fleet) (clock : Timestamp)
    (sending : Option Update) (deeds : List Deed)
    (h : ∀ deed ∈ deeds, deed.Spares .routeSynced id) : Round id where
  routes
  fleet
  clock
  board b := (Desk.run Timestamp.toText ⟨b, sending, fun _ => .null, []⟩ deeds).board
  silent b _ htells := Desk.tells_deeds Timestamp.toText (d := ⟨b, sending, _, []⟩) htells h

/-- The controller and the world that the synchronization of a round starts from. -/
def Round.start (r : Round id) (s : Mapping × World) : Mapping × World :=
  ({ s.1 with routes := r.routes },
    { s.2 with fleet := r.fleet s.2.fleet, clock := r.clock, board := r.board s.2.board })

def round (s : Mapping × World) (r : Round id) : Mapping × World :=
  (r.start s).1.sync (r.start s).2

def rounds (s : Mapping × World) (rs : List (Round id)) : Mapping × World := rs.foldl round s

/-- The verdicts that the synchronizations of a run give on the route, the latest last. -/
def verdicts (s : Mapping × World) : List (Round id) → List Bool
  | [] => []
  | r :: rs => ((r.start s).1.verdict? (r.start s).2 id).toList ++ verdicts (round s r) rs

/-- The board tells the latest verdict, or what it told before there was one. -/
theorem tells_rounds {s : Mapping × World} {held : Bool}
    (h : s.2.board.tells .routeSynced id = some held) (rs : List (Round id)) :
    (rounds s rs).2.board.tells .routeSynced id = some ((verdicts s rs).getLastD held) := by
  induction rs generalizing s held with
  | nil => exact h
  | cons r rs ih =>
    have hround : (round s r).2.board.tells .routeSynced id =
        some (((r.start s).1.verdict? (r.start s).2 id).getD held) := by
      unfold round
      rw [tells_sync, show (r.start s).2.board = r.board s.2.board from rfl, r.silent _ _ h]
      rfl
    refine (ih hround).trans ?_
    rw [verdicts]
    cases (r.start s).1.verdict? (r.start s).2 id with
    | none => rfl
    | some v => simp [List.getLast?_cons]

/-- After every run, and one more synchronization that gets to write, a route is said to be
synchronized if that rendered the route and none of its calls failed; or if it could bind no
port for the route, and the route was said to be synchronized when last there was anything said
about it. -/
theorem tells_run (s : Mapping × World) (rs : List (Round id)) (r : Round id) (held : Bool)
    (known : s.2.board.tells .routeSynced id = some held)
    (converges : (r.start (rounds s rs)).1.Converges (r.start (rounds s rs)).2) :
    let m := (r.start (rounds s rs)).1
    let w := (r.start (rounds s rs)).2
    (m.sync w).2.board.tells .routeSynced id = some true ↔
      id ∈ (m.rendering w).rendered ∧ m.Served w ∨
        m.Starved w id ∧ (verdicts s rs).getLastD held = true := by
  intro m w
  have hboard : w.board.tells .routeSynced id = some ((verdicts s rs).getLastD held) :=
    r.silent _ _ (tells_rounds known rs)
  obtain ⟨htrue, hnone⟩ := verdict_of_converges converges id
  rw [tells_sync, hboard, ← htrue, ← hnone]
  cases m.verdict? w id with
  | none => simp
  | some v => simp

/-! ## A route that was withdrawn -/

/-- A route between two hubs. -/
def narrowRoute : Route := ⟨some "n", "r", ⟨⟨"a", ⟨"n", "s"⟩⟩, ⟨"b", ⟨"n", "s"⟩⟩⟩, none⟩

/-- The hubs have a service of one port, and a single bind port. -/
def narrow : World where
  fleet := { Fleet.ofPool (.ofCount 40000 1) with
    ready := ((∅ : SortedSet String).add "a").add "b"
    graph := ⟨(∅ : SortedMap String Gateway).insert "a" ⟨true, "a:22", [], [], [], []⟩, ∅⟩
    keys := (∅ : SortedMap String String).insert "b" "key"
    services := (∅ : SortedMap (String × String × String) Service).insert ("a", "n", "s")
      ⟨.empty, [⟨none, none, 80, none⟩]⟩ }
  board := (StatusBoard.ofCapacity 2).apply narrowRoute
  counters := .empty
  journal := []
  clock := default

/-- The bind port of the route is recorded, and its status is written. -/
def narrowRound : Round ⟨"n", "r"⟩ :=
  .ofDeeds [narrowRoute] (fun f => f) default none
    [.report default ⟨"n", "r"⟩ (Report.empty.add (.holds .portsAllocated "Allocated" "")), .send,
      .written]
    (by decide)

/-- The service gets a second port. The route is applied again as it is, and its status cannot be
written. -/
def widerRound : Round ⟨"n", "r"⟩ :=
  .ofDeeds [narrowRoute]
    (fun f =>
      { f with
        services := f.services.insert ("a", "n", "s")
          ⟨.empty, [⟨none, none, 80, none⟩, ⟨none, none, 8080, none⟩]⟩ })
    default none [.apply narrowRoute, .send, .failed] (by decide)

/-- The controller and the world when the service has got its second port. -/
def widened : Mapping × World :=
  widerRound.start (rounds (ofPair "a" "b" "/key", narrow) [narrowRound])

theorem converges_widened : widened.1.Converges widened.2 :=
  ⟨by decide +kernel, by decide +kernel, by decide +kernel⟩

/-- The route is withdrawn from the hubs for want of a second bind port, and is said to be
synchronized. -/
theorem overbooked_stays_synced :
    widened.1.Converges widened.2 ∧ widened.2.fleet.configMaps ≠ ∅ ∧
      (widened.1.sync widened.2).2.fleet.configMaps = ∅ ∧
      ⟨"n", "r"⟩ ∈ widened.1.knownRoutes.map (·.1) ∧
      (⟨"n", "r"⟩ : RouteId) ∉ (widened.1.rendering widened.2).rendered ∧
      (widened.1.sync widened.2).2.board.tells .routeSynced ⟨"n", "r"⟩ = some true := by
  refine ⟨converges_widened, ?_, ?_, ?_, ?_, ?_⟩ <;> decide +kernel

/-- That was said by the synchronization before, and this one could bind no port. -/
theorem tells_run_overbooked :
    narrow.board.tells .routeSynced ⟨"n", "r"⟩ = some false ∧
      verdicts (ofPair "a" "b" "/key", narrow) [narrowRound] = [true] ∧
      widened.1.Converges widened.2 ∧ widened.1.Starved widened.2 ⟨"n", "r"⟩ := by
  have hknown : narrow.board.tells .routeSynced ⟨"n", "r"⟩ = some false := by decide +kernel
  have hiff := tells_run (ofPair "a" "b" "/key", narrow) [narrowRound] widerRound false hknown
    converges_widened
  have hsynced : (widened.1.sync widened.2).2.board.tells .routeSynced ⟨"n", "r"⟩ = some true := by
    decide +kernel
  have hunrendered : (⟨"n", "r"⟩ : RouteId) ∉ (widened.1.rendering widened.2).rendered := by
    decide +kernel
  obtain ⟨hstarved, -⟩ := (hiff.1 hsynced).resolve_left fun h => hunrendered h.1
  exact ⟨hknown, by decide +kernel, converges_widened, hstarved⟩

end Mapping

end HubFederation
