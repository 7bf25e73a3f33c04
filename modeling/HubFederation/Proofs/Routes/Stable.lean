import HubFederation.Proofs.Routes.Records

/-!
# How long a bind port stays

A bind port stays as long as a route records it, and while all routes are gone through
nothing is given back that a service still has. So a port that was recorded survives a
request in one of two ways: a route that the request is not about records it, or it is
recorded anew, which takes a ready importing hub and a known service.

* `bound_handle_iff`: which of the recorded ports that are still in use stay bound.
* `renamed_loses_port`: an edit while the importing hub is not ready loses a port.
-/
namespace HubFederation.RouteIndex

variable {x : RouteIndex} {w : World} {hub : String} {peer : ExportedPort} {port : Port}

/-- A port is bound, and its service did not drop it. -/
structure Steady (s : RouteIndex × World) (hub : String) (peer : ExportedPort) (port : Port) :
    Prop where
  honest : s.1.Honest
  kept : ¬ s.2.Drops peer
  bound : (s.2.pool hub).portOf? peer = some port

theorem Steady.allocate {s : RouteIndex × World} (h : Steady s hub peer port) (id : RouteId) :
    Steady (allocate s id) hub peer port := by
  refine ⟨honest_allocate h.honest s.2 id, ?_, bound_allocate h.honest h.kept h.bound id⟩
  rw [World.drops_of_agrees (agrees_allocate s.1 s.2 id)]
  exact h.kept

/-- Where the ports of a route are bound anew, it records those of them that were bound. -/
theorem Steady.records_iff {r : Route} {wanted bound : List ExportedPort} {w₁ : World}
    (h : Steady (x, w) hub peer port) (hw : wantedPorts? w r = some wanted)
    (hb : Binds r.spec.target.hub wanted w w₁ bound) :
    hub = r.spec.target.hub ∧ peer ∈ bound ↔ r.Exports hub peer := by
  constructor
  · rintro ⟨rfl, hmem⟩
    exact (Exports_of_mem hw (hb.within hmem)).1
  · intro hexp
    obtain rfl := hexp.1
    have hoffers : w.Offers peer := by
      refine World.offers_of_known ?_ h.kept
      obtain ⟨s, hs, -⟩ := Option.map_eq_some_iff.1 hw
      unfold World.serviceOf?
      rw [← hexp.2.1, ← hexp.2.2, hs]
      rfl
    obtain ⟨wanted', hw', hmem⟩ := (mem_wanted_iff hexp).2 hoffers
    rw [hw] at hw'
    cases hw'
    exact ⟨rfl, hb.held peer hmem (by rw [h.bound]; exact Option.some_ne_none _)⟩

/-- A route that records a port still records it. -/
theorem Steady.records_allocate {s : RouteIndex × World} (h : Steady s hub peer port)
    {id' : RouteId} (hrec : s.1.Records id' hub peer) (id : RouteId) :
    (RouteIndex.allocate s id).1.Records id' hub peer := by
  obtain ⟨x, w⟩ := s
  rcases x.allocate_cases w id with ⟨he, -⟩ | ⟨r, wanted, w₁, bound, hroute, -, hw, hb, he⟩
  · rw [he]
    exact hrec
  · rw [he, records_record]
    split
    next hid =>
      obtain ⟨r', hroute', hexp⟩ := h.honest.exports hrec
      rw [hid, hroute] at hroute'
      cases hroute'
      exact (h.records_iff hw hb).2 hexp
    · exact hrec

/-- A route that publishes a port records it, if its importing hub is ready and its service
known. -/
theorem Steady.records_of_exports {s : RouteIndex × World} (h : Steady s hub peer port)
    {id : RouteId} {r : Route} (hroute : s.1.routes.get? id = some r) (hexp : r.Exports hub peer)
    (hready : s.2.fleet.isReady hub) (hknown : (s.2.serviceOf? peer).isSome) :
    (RouteIndex.allocate s id).1.Records id hub peer := by
  obtain ⟨x, w⟩ := s
  rcases x.allocate_cases w id with ⟨-, hidle⟩ | ⟨r', wanted, w₁, bound, hroute', -, hw, hb, he⟩
  · rcases hidle r hroute with hnot | hnone
    · rw [hexp.1, hready] at hnot
      cases hnot
    · obtain ⟨wanted, hw, -⟩ := (mem_wanted_iff hexp).2 (World.offers_of_known hknown h.kept)
      rw [hnone] at hw
      cases hw
  · rw [he, records_record, if_pos rfl]
    rw [hroute] at hroute'
    cases hroute'
    exact (h.records_iff hw hb).2 hexp

/-- While the importing hub is not ready or the service not known, a port is recorded by no
route that did not record it before. -/
theorem Steady.records_of_allocate {s : RouteIndex × World} (h : Steady s hub peer port)
    (hunable : ¬ (s.2.fleet.isReady hub ∧ (s.2.serviceOf? peer).isSome)) {id id' : RouteId}
    (hrec : (RouteIndex.allocate s id).1.Records id' hub peer) : s.1.Records id' hub peer := by
  obtain ⟨x, w⟩ := s
  rcases x.allocate_cases w id with ⟨he, -⟩ | ⟨r, wanted, w₁, bound, -, hready, hw, hb, he⟩
  · rwa [he] at hrec
  · rw [he, records_record] at hrec
    split at hrec
    · obtain ⟨rfl, hmem⟩ := hrec
      exact absurd ⟨hready, (Exports_of_mem hw (hb.within hmem)).2.known⟩ hunable
    · exact hrec

/-! ## All routes -/

theorem Steady.allocateAll (h : Steady (x, w) hub peer port) :
    Steady (x.allocateAll w) hub peer port :=
  allocateAll_induction (P := fun s => Steady s hub peer port) (fun _ id h => h.allocate id) h

/-- Once all routes were gone through, a port is recorded if a route publishes it, or, while
that cannot be told, if a route had recorded it. -/
theorem Steady.recorded_iff (h : Steady (x, w) hub peer port) :
    (∃ id, (x.allocateAll w).1.Records id hub peer) ↔ (∃ id, x.Records id hub peer) ∨
      (x.Exports hub peer ∧ w.fleet.isReady hub ∧ (w.serviceOf? peer).isSome) := by
  constructor
  · rintro ⟨id, hrec⟩
    by_cases hable : w.fleet.isReady hub ∧ (w.serviceOf? peer).isSome
    · obtain ⟨r, hroute, hexp⟩ := (honest_allocateAll h.honest w).exports hrec
      rw [routes_allocateAll] at hroute
      exact .inr ⟨⟨id, r, hroute, hexp⟩, hable⟩
    · have hall := allocateAll_induction (x := x) (w := w)
        (P := fun s => Steady s hub peer port ∧ w.fleet.Agrees s.2.fleet ∧
          (s.1.Records id hub peer → x.Records id hub peer))
        (fun s id' ⟨hs, ha, hback⟩ => ⟨hs.allocate id', ha.trans (agrees_allocate s.1 s.2 id'),
          fun hrec => hback (hs.records_of_allocate
            (by rwa [ha.isReady, World.serviceOf?_of_agrees ha]) hrec)⟩)
        ⟨h, .refl _, fun hrec => hrec⟩
      exact .inl ⟨id, hall.2.2 hrec⟩
  · rintro (⟨id, hrec⟩ | ⟨⟨id, r, hroute, hexp⟩, hready, hknown⟩)
    · have hall := allocateAll_induction (x := x) (w := w)
        (P := fun s => Steady s hub peer port ∧ s.1.Records id hub peer)
        (fun s id' ⟨hs, hrec⟩ => ⟨hs.allocate id', hs.records_allocate hrec id'⟩) ⟨h, hrec⟩
      exact ⟨id, hall.2⟩
    · have hall := allocateAll_visits id (x := x) (w := w)
        (P := fun s => Steady s hub peer port ∧ w.fleet.Agrees s.2.fleet ∧ s.1.routes = x.routes)
        (Q := fun s => Steady s hub peer port ∧ s.1.Records id hub peer)
        (fun s id' ⟨hs, ha, hr⟩ => ⟨hs.allocate id', ha.trans (agrees_allocate s.1 s.2 id'),
          (routes_allocate s.1 s.2 id').trans hr⟩)
        (fun s ⟨hs, ha, hr⟩ => ⟨hs.allocate id, hs.records_of_exports (by rw [hr, hroute]) hexp
          (by rwa [ha.isReady]) (by rwa [World.serviceOf?_of_agrees ha])⟩)
        (fun s id' ⟨hs, hrec⟩ => ⟨hs.allocate id', hs.records_allocate hrec id'⟩)
        ⟨h, .refl _, rfl⟩ (by rw [hroute]; rfl)
      exact ⟨id, hall.2⟩

/-! ## Requests -/

/-- Of the ports that a route had recorded, exchanging it keeps those that are recorded in
the end. -/
theorem Steady.bound_exchange_iff (h : Steady (x, w) hub peer port) {id : RouteId}
    {routes : SortedMap RouteId Route}
    (hroutes : ∀ id' ≠ id, routes.get? id' = x.routes.get? id')
    (hrec : ∃ id', x.Records id' hub peer) :
    ((x.exchange w id routes).2.pool hub).portOf? peer = some port ↔
      ∃ id', (x.exchange w id routes).1.Records id' hub peer := by
  have hall : Steady (RouteIndex.allocateAll ⟨routes, x.allocated.erase id⟩ w) hub peer port :=
    Steady.allocateAll ⟨h.honest.erase hroutes, h.kept, h.bound⟩
  rw [exchange_fst]
  unfold exchange
  by_cases hkept :
      ∃ id', (RouteIndex.allocateAll ⟨routes, x.allocated.erase id⟩ w).1.Records id' hub peer
  · refine iff_of_true ?_ hkept
    cases x.routes.get? id with
    | none => exact hall.bound
    | some old => exact (portOf?_releaseRoute_of_kept (.inr hkept)).trans hall.bound
  · refine iff_of_false ?_ hkept
    -- Nobody but the exchanged route had recorded the port, so its record is owed.
    obtain ⟨id', hrec⟩ := hrec
    have hid : id' = id := Classical.byContradiction fun hne => hkept <|
      (Steady.recorded_iff ⟨h.honest.erase hroutes, h.kept, h.bound⟩).2
        (.inl ⟨id', records_erase.2 ⟨hne, hrec⟩⟩)
    subst hid
    obtain ⟨old, hold, -⟩ := h.honest.exports hrec
    simp only [hold]
    rw [portOf?_releaseRoute_of_freed (.inl hrec) hkept]
    exact fun hnone => nomatch hnone

/-- A port that a route recorded, that a route still publishes and that its service did not
drop is bound after a request if a route that the request is not about records it, or if
the importing hub is ready and the service known. -/
theorem bound_handle_iff {outside : World → World → Prop} (hx : Reached outside x w) (c : Request)
    (hrec : ∃ id, x.Records id hub peer) (hbound : (w.pool hub).portOf? peer = some port)
    (hexp : (x.handle w c).index.Exports hub peer) (hkept : ¬ w.Drops peer) :
    ((x.handle w c).world.pool hub).portOf? peer = some port ↔
      (∃ id, x.touched? c ≠ some id ∧ x.Records id hub peer) ∨
        (w.fleet.isReady hub ∧ (w.serviceOf? peer).isSome) := by
  have hs : Steady (x, w) hub peer port := ⟨hx.honest, hkept, hbound⟩
  rcases handle_cases hx.honest w c with ⟨hidle, -, hworld⟩ | ⟨id, routes, htouched, hroutes, he⟩
  · refine iff_of_true (by rw [hworld]; exact hbound) ?_
    obtain ⟨id, hrec⟩ := hrec
    obtain ⟨r, hroute, -⟩ := hx.honest.exports hrec
    refine .inl ⟨id, fun htouched => ?_, hrec⟩
    rw [hidle id htouched] at hroute
    cases hroute
  · have hindex : (x.handle w c).index = (x.exchange w id routes).1 := congrArg Prod.fst he
    have hworld : (x.handle w c).world = (x.exchange w id routes).2 := congrArg Prod.snd he
    rw [hindex, exchange_fst] at hexp
    obtain ⟨id', r, hroute, hr⟩ := hexp
    rw [routes_allocateAll] at hroute
    rw [hworld, hs.bound_exchange_iff hroutes hrec, exchange_fst,
      Steady.recorded_iff ⟨hx.honest.erase hroutes, hkept, hbound⟩, htouched]
    simp only [records_erase, ne_eq, Option.some.injEq, eq_comm (a := id)]
    exact or_congr_right (and_iff_right ⟨id', r, hroute, hr⟩)

/-! ## An edit at the wrong time -/

/-- A route from hub `a` to hub `b`, published there as `name`. -/
def edited (name : String) : Route :=
  ⟨some "n", "r", ⟨⟨"a", ⟨"n", "s"⟩⟩, ⟨"b", ⟨"n", name⟩⟩⟩, none⟩

/-- Hub `a` has a service with one port, hub `b` is ready. -/
def served : World where
  fleet := { Fleet.ofPool default with
    ready := (∅ : SortedSet String).add "b"
    services := (∅ : SortedMap (String × String × String) Service).insert ("a", "n", "s")
      ⟨.empty, [⟨none, none, 80, none⟩]⟩ }
  board := .ofCapacity 1
  counters := .empty
  journal := []
  clock := default

/-- The route is indexed and its port bound. -/
def indexed : Change := RouteIndex.empty.handle served (.apply (edited "s"))

/-- Then hub `b` is lost. -/
def lost : World := { indexed.world with fleet := { indexed.world.fleet with ready := ∅ } }

theorem reached_lost : Reached (fun _ _ => True) indexed.index lost :=
  .outside (.handle (.start served) (.apply (edited "s"))) trivial

/-- The exported port of the route. -/
def exported : ExportedPort := ⟨"a", "n", "s", 80⟩

theorem records_exported : indexed.index.Records ⟨"n", "r"⟩ "b" exported :=
  ⟨[exported], by decide +kernel, List.mem_singleton.2 rfl⟩

theorem exports_edited :
    (indexed.index.handle lost (.apply (edited "t"))).index.Exports "b" exported :=
  ⟨⟨"n", "r"⟩, edited "t", by decide +kernel, rfl, rfl, rfl⟩

theorem not_drops_exported : ¬ lost.Drops exported := by
  rintro ⟨s, hs, hmem⟩
  have hservice : lost.serviceOf? exported = some ⟨.empty, [⟨none, none, 80, none⟩]⟩ := by
    decide +kernel
  rw [hservice] at hs
  cases hs
  exact hmem (by decide)

/-- Publishing the service under another name while its hub is not ready gives its bind
port back, although the service is still exported to that hub. -/
theorem renamed_loses_port :
    (∃ id, indexed.index.Records id "b" exported) ∧
      (lost.pool "b").portOf? exported = some 40000 ∧
      (indexed.index.handle lost (.apply (edited "t"))).index.Exports "b" exported ∧
      ¬ lost.Drops exported ∧
      ((indexed.index.handle lost (.apply (edited "t"))).world.pool "b").portOf? exported = none :=
  ⟨⟨_, records_exported⟩, by decide +kernel, exports_edited, not_drops_exported, by decide +kernel⟩

/-- No other route records the port, and the hub is not ready. -/
theorem bound_handle_iff_renamed :
    (lost.pool "b").portOf? exported = some 40000 ∧
      (((indexed.index.handle lost (.apply (edited "t"))).world.pool "b").portOf? exported =
          some 40000 ↔
        (∃ id, indexed.index.touched? (.apply (edited "t")) ≠ some id ∧
            indexed.index.Records id "b" exported) ∨
          (lost.fleet.isReady "b" ∧ (lost.serviceOf? exported).isSome)) := by
  have hbound : (lost.pool "b").portOf? exported = some 40000 := by decide +kernel
  exact ⟨hbound, bound_handle_iff reached_lost (.apply (edited "t")) ⟨_, records_exported⟩ hbound
    exports_edited not_drops_exported⟩

end HubFederation.RouteIndex
