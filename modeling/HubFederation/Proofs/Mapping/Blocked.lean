import HubFederation.Proofs.Mapping.Reports
import HubFederation.Proofs.Mapping.Seeding
import HubFederation.Proofs.Way.Rounds

/-!
# Synchronizations that change nothing

A hub of the pair that is not ready, or one chain that cannot be built, keeps a synchronization
from writing. It does not matter which of the routes that is, and what became of the others: the
outcomes of all routes come together before the first call that changes a hub.

* `converges_iff`: a synchronization gets to write if both hubs are ready and no route is
  blocked, and only then.
* `cache_seed`: what is cached once the hubs of a way are read.
* `sync_of_blocked`: what a synchronization leaves that does not get to write.
-/
namespace HubFederation.Mapping

/-! ## What keeps a synchronization from writing -/

/-- Rendering some route ends with a chain that cannot be built. -/
def Blocked (m : Mapping) (w : World) : Prop :=
  ∃ out ∈ m.outcome w, ∃ cause, out.2 = .error (.chain cause)

theorem freezes_iff {out : (RouteId × Route) × Except RouteError Resources} :
    freezes out = true ↔ ∃ cause, out.2 = .error (.chain cause) := by
  obtain ⟨e, err | resources⟩ := out
  · cases err <;> simp [freezes, RouteError.freezes]
  · simp [freezes]

theorem frozen_rendering_iff {m : Mapping} {w : World} :
    (m.rendering w).frozen = true ↔ m.Blocked w := by
  rw [(m.rendering_eq w).2.2.2, List.any_eq_true]
  exact exists_congr fun out => and_congr_right fun _ => freezes_iff

/-- A synchronization gets to write if both hubs are ready and no route is blocked, and only
then. -/
theorem converges_iff {m : Mapping} {w : World} :
    m.Converges w ↔ w.fleet.isReady m.exporting = true ∧ w.fleet.isReady m.importing = true ∧
      ¬ m.Blocked w := by
  rw [← frozen_rendering_iff, Bool.not_eq_true]
  exact ⟨fun h => ⟨h.exporting, h.importing, h.built⟩, fun ⟨he, hi, hb⟩ => ⟨he, hi, hb⟩⟩

/-! ## What is read -/

/-- Whether a hub is read that is on the way: it was not read before, it is ready, and its
ConfigMaps can be listed. -/
def opens (m : Mapping) (w : World) (hub : String) : Bool :=
  !m.seeded.contains hub && w.fleet.isReady hub && !w.fleet.listFails hub

/-- The ConfigMaps that are read from the hubs of a way, as they are cached. -/
def readings (m : Mapping) (w : World) (way : List String) : List (String × ConfigMap) :=
  (way.filter (m.opens w)).flatMap fun hub =>
    (w.fleet.list hub m.labels).map fun cm => (hub, cm.normalize)

/-- A hub is read, or the controller remains as it was. -/
theorem seedHub_fst (m : Mapping) (w : World) (hub : String) :
    (seedHub (m, w) hub).1 =
      if m.opens w hub then
        { m with
          cache := (w.fleet.list hub m.labels).foldl (fun c cm => c.insert hub cm.normalize) m.cache
          seeded := m.seeded.add hub }
      else m := by
  cases hseeded : m.seeded.contains hub with
  | true => simp [seedHub, opens, hseeded]
  | false =>
    rcases m.seedHub_cases w hub with ⟨hskip, he⟩ | ⟨hfails, he⟩ | ⟨hready, hfails, he⟩
    · have hready : w.fleet.isReady hub = false := hskip.resolve_left (by simp [hseeded])
      simp [opens, he, hready]
    · simp [opens, he, hfails]
    · simp [opens, he, hseeded, hready, hfails]

/-- Reading one hub makes no difference to what is read from the others. -/
theorem readings_seedHub {m : Mapping} {w : World} {hub : String} {way : List String}
    (h : hub ∉ way) :
    (seedHub (m, w) hub).1.readings (seedHub (m, w) hub).2 way = m.readings w way := by
  have hread := reads_seedHub m w hub
  have hseeded (hub' : String) (hne : hub' ≠ hub) :
      (seedHub (m, w) hub).1.seeded.contains hub' = m.seeded.contains hub' := by
    rw [seedHub_fst]
    split
    · simp [SortedSet.add, SortedMap.contains, SortedMap.get?_insert, hne]
    · rfl
  have hopens : way.filter ((seedHub (m, w) hub).1.opens (seedHub (m, w) hub).2) =
      way.filter (m.opens w) := by
    refine List.filter_congr fun hub' hmem => ?_
    unfold opens
    rw [hseeded hub' fun he => h (he ▸ hmem), hread.fleet]
    rfl
  unfold readings
  rw [hopens, hread.fleet, show (seedHub (m, w) hub).1.labels = m.labels by rw [hread.mapping]; rfl]
  rfl

/-- What is cached once the hubs of a way are read. -/
theorem cache_seed (way : List String) {m : Mapping} {w : World} (h : way.Nodup) :
    (m.seed w way).1.cache =
      (m.readings w way).foldl (fun c e => c.insert e.1 e.2) m.cache := by
  induction way generalizing m w with
  | nil => rfl
  | cons hub way ih =>
    obtain ⟨hnew, hrest⟩ := List.nodup_cons.1 h
    rw [seed_cons, ih hrest, readings_seedHub hnew, seedHub_fst]
    unfold readings
    cases hopens : m.opens w hub with
    | true =>
      rw [List.filter_cons_of_pos hopens, List.flatMap_cons, List.foldl_append, List.foldl_map]
      rfl
    | false => rw [List.filter_cons_of_neg (by simp [hopens])]; rfl

/-- What a synchronization reads: nothing, unless both hubs are ready. -/
def found (m : Mapping) (w : World) : List (String × ConfigMap) :=
  if w.fleet.isReady m.exporting && w.fleet.isReady m.importing then m.readings w (m.way w) else []

/-! ## What a blocked synchronization leaves -/

theorem not_converges_of_blocked {m : Mapping} {w : World}
    (h : w.fleet.isReady m.exporting = false ∨ w.fleet.isReady m.importing = false ∨
      m.Blocked w) : ¬ m.Converges w := by
  rw [converges_iff]
  rintro ⟨hexporting, himporting, hfree⟩
  rcases h with hwait | hwait | hblocked
  · rw [hwait] at hexporting
    cases hexporting
  · rw [hwait] at himporting
    cases himporting
  · exact hfree hblocked

/-- A controller that does not get to write remembers what it remembered, and what it read. -/
theorem sync_fst_of_not_converges {m : Mapping} {w : World} (h : ¬ m.Converges w) :
    (m.sync w).1 = { m with
      cache := (m.found w).foldl (fun c e => c.insert e.1 e.2) m.cache
      seeded := (m.sync w).1.seeded } := by
  have hcache : (m.sync w).1.cache =
      (m.found w).foldl (fun c e => c.insert e.1 e.2) m.cache := by
    unfold found
    cases hready : w.fleet.isReady m.exporting && w.fleet.isReady m.importing with
    | false => rw [(sync_of_not_ready hready).1]; rfl
    | true =>
      have hfrozen : (m.rendering w).frozen = true := by
        rw [Bool.and_eq_true] at hready
        rw [frozen_rendering_iff]
        by_contra hfree
        exact h (converges_iff.2 ⟨hready.1, hready.2, hfree⟩)
      rw [(sync_of_frozen hready hfrozen).1]
      exact cache_seed (m.way w) (Way.nodup_solve ..)
  rw [← hcache]
  exact m.mapping_sync w

/-- A synchronization that waits for a hub, or that has a route whose chain cannot be built, makes
no call that changes a hub, whatever became of the other routes. On the hubs nothing has changed
but bind ports, and the controller is the same but for what it read. If it waits for a hub, it
lists no hub either and binds no port. -/
theorem sync_of_blocked {m : Mapping} {w : World}
    (h : w.fleet.isReady m.exporting = false ∨ w.fleet.isReady m.importing = false ∨
      m.Blocked w) :
    w.callsTo (m.sync w).2 = [] ∧
    (m.sync w).2.fleet = { w.fleet with ports := (m.sync w).2.fleet.ports } ∧
    (m.sync w).1 = { m with
      cache := (m.found w).foldl (fun c e => c.insert e.1 e.2) m.cache
      seeded := (m.sync w).1.seeded } ∧
    (w.fleet.isReady m.exporting = false ∨ w.fleet.isReady m.importing = false →
      (m.sync w).1 = m ∧ (m.sync w).2.fleet = w.fleet ∧ (m.sync w).2.journal = w.journal) := by
  have hnot := not_converges_of_blocked h
  refine ⟨callsTo_sync_of_not_converges hnot, ?_, sync_fst_of_not_converges hnot, fun hwait => ?_⟩
  · rcases sync_of_not_converges hnot with ⟨-, hfleet, -⟩ | ⟨-, hfleet, -⟩
    · rw [hfleet]
    · rw [hfleet]
      exact m.fleet_rendering w
  · have hready : (w.fleet.isReady m.exporting && w.fleet.isReady m.importing) = false := by
      rcases hwait with hwait | hwait <;> simp [hwait]
    exact ⟨(sync_of_not_ready hready).1, (sync_of_not_ready hready).2, journal_of_not_ready hready⟩

/-! ## Routes that fail one way and another -/

/-- Two hubs of which neither can be dialed. One of their Services has a port, the other one has
none; and there is something left of an earlier run. -/
def walled : World where
  fleet := { Fleet.ofPool default with
    ready := ((∅ : SortedSet String).add "a").add "b"
    services := ((∅ : SortedMap (String × String × String) Service).insert ("a", "n", "web")
      ⟨.empty, [⟨none, none, 80, none⟩]⟩).insert ("a", "n", "bare") ⟨.empty, []⟩
    configMaps := (∅ : Resources).insert "b"
      (.rendered "old" (.pair "a" "b") []) }
  board := .ofCapacity 3
  counters := .empty
  journal := []
  clock := default

/-- A controller for a route to each of the two Services, and for one to a Service that is
unknown. -/
def mixed : Mapping :=
  { ofPair "a" "b" "/key" with
    routes := ["none", "web", "bare"].map fun service =>
      ⟨some "n", service, ⟨⟨"a", ⟨"n", service⟩⟩, ⟨"b", ⟨"n", "s"⟩⟩⟩, none⟩ }

/-- The route in the middle is blocked, so no call is made for the others either: nothing is applied
for the one that is rendered, and what is left of the earlier run is cached and stays on its hub. -/
theorem sync_of_blocked_mixed :
    (mixed.outcome walled).map freezes = [false, true, false] ∧ mixed.Blocked walled ∧
      walled.callsTo (mixed.sync walled).2 = [] ∧
      (mixed.sync walled).2.fleet.configMaps = walled.fleet.configMaps ∧
      (mixed.sync walled).1.cache = walled.fleet.configMaps := by
  have hfreezes : (mixed.outcome walled).map freezes = [false, true, false] := by decide +kernel
  have hblocked : mixed.Blocked walled := by
    have hmem : true ∈ (mixed.outcome walled).map freezes := by simp [hfreezes]
    obtain ⟨out, hout, hfrozen⟩ := List.mem_map.1 hmem
    exact ⟨out, hout, freezes_iff.1 hfrozen⟩
  obtain ⟨hcalls, hfleet, hmapping, -⟩ := sync_of_blocked (.inr (.inr hblocked))
  refine ⟨hfreezes, hblocked, hcalls, by rw [hfleet], ?_⟩
  rw [hmapping]
  decide +kernel

end HubFederation.Mapping
