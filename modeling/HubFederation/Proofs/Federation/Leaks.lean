import HubFederation.Proofs.Federation.Jobs
import HubFederation.Proofs.Mapping.Binds
import HubFederation.Proofs.Routes.Tidy
import Mathlib.Data.List.Induction

/-!
# Bind ports that leak

A bind port leaks if it is bound although no indexed route publishes its service on that
hub and no open task has such a route. Ports are bound in two places: by the index, which
records them, and by the tasks, which do not. The index gives back what it recorded for a
route, and what the service of the route has when the route goes. So a port leaks for one
of two reasons: a task bound it and the service lost it before the index came to record it,
or a task bound it for a route that was gone already.

* `careful_work`: a task binds what the index claims, unless a route of it is gone.
* `leakproof_iff_tidy`: no port can leak, whatever routes are deleted now, if every bound
  port is claimed.
* `leakproof_iff_careful`: no port of a run leaks if no move of it is careless.
* `leaks_shrunk`: a service that gains a port and loses it again.
-/
namespace HubFederation.Federation

/-- A bound port leaks: no indexed route publishes its service there, and no open task has
such a route. -/
def Leaks (f : Federation) (hub : String) (peer : ExportedPort) : Prop :=
  (f.world.pool hub).portOf? peer ≠ none ∧ ¬ f.index.Exports hub peer ∧
    ∀ pair id t, f.mappings.get? pair = some id → f.tasks[id]? = some t →
      ∀ r ∈ t.mapping.routes, ¬ r.Exports hub peer

/-- Deletes routes, then regroups. -/
def Move.clearing (ids : List RouteId) : List Move := ids.map .delete ++ [.reconcile]

/-- No port leaks now, nor while routes are deleted. -/
def Leakproof (f : Federation) : Prop :=
  ∀ ids ms, ms <+: Move.clearing ids → ∀ hub peer, ¬ (f.run ms).Leaks hub peer

/-- A move is careful unless it leaves a port bound that nobody will give back: a change of the
hubs may not take away a port of a service that is bound but not recorded, and a task may only
bind ports that the index claims. -/
def Move.Careful (f : Federation) : Move → Prop
  | .outside hubs board clock => ∀ hub peer, (f.world.pool hub).portOf? peer ≠ none →
      f.index.isRecorded hub peer = false → f.world.Offers peer →
      (f.step (.outside hubs board clock)).world.Offers peer
  | .work id => ∀ hub peer, (f.world.pool hub).portOf? peer = none →
      ((f.step (.work id)).world.pool hub).portOf? peer ≠ none → f.index.Claims f.world hub peer
  | _ => True

/-- The index is honest, and every bound port is claimed. -/
structure Tidy (f : Federation) : Prop where
  honest : f.index.Honest
  tidy : f.index.Tidy f.world

/-! ## What a move preserves -/

theorem tidy_of_fleet {x : RouteIndex} {w w' : World} (h : w'.fleet = w.fleet) (ht : x.Tidy w) :
    x.Tidy w' := by
  intro hub peer hp
  unfold RouteIndex.Claims World.Offers World.serviceOf?
  unfold World.pool at hp
  rw [h] at hp ⊢
  exact ht hub peer hp

theorem SameRoutes.tidy {f g : Federation} (h : SameRoutes f g) (ht : f.Tidy) : g.Tidy := by
  refine ⟨?_, ?_⟩ <;> rw [h.index]
  · exact ht.honest
  · exact tidy_of_fleet h.fleet ht.tidy

theorem tidy_afterChange {f : Federation} {c : RouteIndex.Change} (hx : c.index.Honest)
    (ht : c.index.Tidy c.world) : (f.afterChange c).Tidy := by
  unfold afterChange
  simp only
  split <;> exact ⟨hx, ht⟩

theorem tidy_reconcile {f : Federation} (ht : f.Tidy) : f.reconcile.Tidy := by
  obtain ⟨hindex, hfleet⟩ := f.reconcile_eq
  refine ⟨?_, ?_⟩ <;> rw [hindex]
  · exact RouteIndex.honest_allocateAll ht.honest f.world
  · exact tidy_of_fleet hfleet (RouteIndex.tidy_allocateAll ht.tidy)

/-- A task that binds only what the index claims leaves everything claimed. -/
theorem tidy_pollTask_iff {f : Federation} (ht : f.Tidy) (id : Nat) :
    (f.pollTask id).Tidy ↔ Move.Careful f (.work id) := by
  have hclaims (hub : String) (peer : ExportedPort) :
      (f.pollTask id).index.Claims (f.pollTask id).world hub peer ↔
        f.index.Claims f.world hub peer := by
    unfold RouteIndex.Claims
    rw [index_pollTask, World.offers_of_agrees (f.agrees_pollTask id)]
  constructor
  · exact fun h hub peer _ hp => (hclaims hub peer).1 (h.tidy hub peer hp)
  · refine fun hcareful => ⟨by rw [index_pollTask]; exact ht.honest, fun hub peer hp => ?_⟩
    rw [hclaims]
    by_cases hbefore : (f.world.pool hub).portOf? peer = none
    · exact hcareful hub peer hbefore hp
    · exact ht.tidy hub peer hbefore

/-- A change of the hubs leaves everything claimed if services keep what is bound and not
recorded. -/
theorem tidy_outside_iff {f : Federation} (ht : f.Tidy) (hubs : Fleet) (board : StatusBoard)
    (clock : Timestamp) :
    (f.step (.outside hubs board clock)).Tidy ↔ Move.Careful f (.outside hubs board clock) := by
  have hrecorded (hub : String) (peer : ExportedPort) :
      f.index.isRecorded hub peer = false ↔ ¬ ∃ id, f.index.Records id hub peer := by
    rw [← RouteIndex.isRecorded_iff, Bool.not_eq_true]
  constructor
  · intro h hub peer hp hfree _
    exact ((h.tidy hub peer hp).resolve_left ((hrecorded hub peer).1 hfree)).2
  · refine fun hcareful => ⟨ht.honest, fun hub peer hp => ?_⟩
    rcases ht.tidy hub peer hp with hrec | ⟨hexp, hoffers⟩
    · exact .inl hrec
    · by_cases hrec : ∃ id, f.index.Records id hub peer
      · exact .inl hrec
      · exact .inr ⟨hexp, hcareful hub peer hp ((hrecorded hub peer).2 hrec) hoffers⟩

theorem honest_step {f : Federation} (hx : f.index.Honest) (m : Move) :
    (f.step m).index.Honest := by
  have hreconcile {g : Federation} (hg : g.index = f.index) : g.reconcile.index.Honest := by
    rw [g.reconcile_eq.1, hg]
    exact RouteIndex.honest_allocateAll hx g.world
  have hafter (c : RouteIndex.Change) : (f.afterChange c).index = c.index := by
    unfold afterChange
    simp only
    split <;> rfl
  cases m with
  | apply route =>
    rw [step, applyRoute, hafter]
    exact RouteIndex.honest_handle hx _ (.apply route)
  | delete id =>
    rw [step, deleteRoute, hafter]
    exact RouteIndex.honest_handle hx _ (.delete id)
  | outside hubs board clock => exact hx
  | serviceChanged hub => rw [step, (f.sameRoutes_serviceChanged hub).index]; exact hx
  | requestRegrouping => exact hx
  | regroup =>
    simp only [step, pollRegrouping]
    split
    · exact hreconcile rfl
    · exact hx
  | reconcile => exact hreconcile rfl
  | work id => rw [step, index_pollTask]; exact hx
  | elapse ms => exact hx

theorem honest_run {f : Federation} (hx : f.index.Honest) (ms : List Move) :
    (f.run ms).index.Honest := by
  induction ms generalizing f with
  | nil => exact hx
  | cons m ms ih => exact ih (honest_step hx m)

/-- A move leaves everything claimed if it is careful. -/
theorem tidy_step_iff {f : Federation} (ht : f.Tidy) (m : Move) :
    (f.step m).Tidy ↔ m.Careful f := by
  cases m with
  | apply route =>
    refine iff_of_true (tidy_afterChange ?_ ?_) trivial
    · exact RouteIndex.honest_handle ht.honest _ (.apply route)
    · exact RouteIndex.tidy_handle ht.honest
        (w := { f.world with board := f.world.board.apply route })
        (tidy_of_fleet (w := f.world) rfl ht.tidy) (.apply route)
  | delete id =>
    refine iff_of_true (tidy_afterChange ?_ ?_) trivial
    · exact RouteIndex.honest_handle ht.honest _ (.delete id)
    · exact RouteIndex.tidy_handle ht.honest
        (w := { f.world with board := f.world.board.delete id })
        (tidy_of_fleet (w := f.world) rfl ht.tidy) (.delete id)
  | outside hubs board clock => exact tidy_outside_iff ht hubs board clock
  | serviceChanged hub => exact iff_of_true ((f.sameRoutes_serviceChanged hub).tidy ht) trivial
  | requestRegrouping => exact iff_of_true ⟨ht.honest, ht.tidy⟩ trivial
  | regroup =>
    refine iff_of_true ?_ trivial
    simp only [step, pollRegrouping]
    split
    · exact tidy_reconcile ⟨ht.honest, ht.tidy⟩
    · exact ⟨ht.honest, ht.tidy⟩
  | reconcile => exact iff_of_true (tidy_reconcile ht) trivial
  | work id => exact tidy_pollTask_iff ht id
  | elapse ms => exact iff_of_true ⟨ht.honest, ht.tidy⟩ trivial

/-- Everything stays claimed in a run if every move of it is careful. -/
theorem tidy_run_iff {f : Federation} (ht : f.Tidy) (ms : List Move) :
    (∀ pre, pre <+: ms → (f.run pre).Tidy) ↔
      ∀ pre m, pre ++ [m] <+: ms → m.Careful (f.run pre) := by
  constructor
  · intro h pre m hpre
    have hafter := h (pre ++ [m]) hpre
    rw [run_concat] at hafter
    exact (tidy_step_iff (h pre ((List.prefix_append ..).trans hpre)) m).1 hafter
  · intro h pre hpre
    induction pre using List.reverseRecOn with
    | nil => exact ht
    | append_singleton pre m ih =>
      rw [run_concat]
      exact (tidy_step_iff (ih ((List.prefix_append ..).trans hpre)) m).2 (h pre m hpre)

/-! ## Tasks that bind no more than they should -/

/-- What an indexed route of a pair publishes is claimed. -/
theorem claims_of_publishes {f : Federation} {m : Mapping} {r : Route} {peer : ExportedPort}
    (hindexed : ∃ id, f.index.routes.get? id = some r) (hpair : r.spec.pair = m.pair)
    (hp : peer ∈ m.publishes f.world.fleet r) : f.index.Claims f.world m.importing peer := by
  obtain ⟨id, hroute⟩ := hindexed
  obtain ⟨hsource, htarget⟩ := Prod.mk.inj hpair
  unfold Mapping.publishes at hp
  split at hp
  · cases hp
  next service hs =>
    obtain ⟨⟨protocol, port⟩, hmem, rfl⟩ := List.mem_map.1 hp
    exact .inr ⟨⟨id, r, hroute, htarget, hsource, rfl⟩, service, hs,
      List.mem_map.2 ⟨(protocol, port), hmem, rfl⟩⟩

/-- A task is careful if its routes are indexed still, unless it is closed, and what it finds
recorded on its hub is claimed. -/
theorem careful_work {f : Federation} {id : Nat}
    (h : ∀ t, f.tasks[id]? = some t →
      (t.closed = false → ∀ r ∈ t.mapping.routes, (∃ id, f.index.routes.get? id = some r) ∧
        r.spec.pair = t.mapping.pair) ∧
      ∀ peer, t.mapping.Finds f.world.fleet peer →
        f.index.Claims f.world t.mapping.importing peer) :
    Move.Careful f (.work id) := by
  intro hub peer hnone hsome
  unfold step pollTask at hsome
  cases ht : f.tasks[id]? with
  | none =>
    simp only [ht] at hsome
    exact absurd hnone hsome
  | some t =>
    obtain ⟨hroutes, hfound⟩ := h t ht
    simp only [ht] at hsome
    obtain ⟨w, hsteps, hports⟩ := (t.polled f.isDone f.world).steps
    have hbinds := hsteps.binds.trans (.of_ports hports)
    obtain ⟨rfl, hfinds | ⟨hopen, e, he, hp⟩⟩ :=
      (hbinds hub peer hsome).resolve_left fun hp => hp hnone
    · exact hfound peer hfinds
    · obtain ⟨r, hr, hid⟩ := List.mem_filterMap.1 he
      obtain ⟨id', -, rfl⟩ := Option.map_eq_some_iff.1 hid
      exact claims_of_publishes (hroutes hopen r hr).1 (hroutes hopen r hr).2 hp

/-! ## Leaks -/

/-- What is claimed does not leak. -/
theorem Tidy.not_leaks {f : Federation} (h : f.Tidy) (hub : String) (peer : ExportedPort) :
    ¬ f.Leaks hub peer := by
  rintro ⟨hp, hexp, -⟩
  rcases h.tidy hub peer hp with ⟨id, hrec⟩ | ⟨hclaimed, -⟩
  · obtain ⟨r, hroute, hr⟩ := h.honest.exports hrec
    exact hexp ⟨id, r, hroute, hr⟩
  · exact hexp hclaimed

theorem careful_clearing {m : Move} {ids : List RouteId} (h : m ∈ Move.clearing ids)
    (f : Federation) : m.Careful f := by
  rcases List.mem_append.1 h with h | h
  · obtain ⟨id, -, rfl⟩ := List.mem_map.1 h
    trivial
  · cases List.mem_singleton.1 h
    trivial

/-- What an index holds after routes were deleted. -/
theorem index_deleteRoute (f : Federation) (id : RouteId) :
    ∃ w, w.fleet = f.world.fleet ∧ (f.deleteRoute id).index = (f.index.delete w id).index ∧
      (f.deleteRoute id).world = (f.index.delete w id).world := by
  refine ⟨{ f.world with board := f.world.board.delete id }, rfl, ?_⟩
  unfold deleteRoute afterChange
  simp only
  split <;> exact ⟨rfl, rfl⟩

theorem routes_delete {x : RouteIndex} (hx : x.Honest) (w : World) (id id' : RouteId) :
    (x.delete w id).index.routes.get? id' = if id' = id then none else x.routes.get? id' := by
  unfold RouteIndex.delete
  rcases RouteIndex.remove_cases hx w id with ⟨hnone, hindex, -⟩ | he
  · rw [hindex]
    split
    next hid => rw [hid, hnone]
    · rfl
  · rw [show (x.remove w id).index = _ from congrArg Prod.fst he, RouteIndex.exchange_fst,
      RouteIndex.routes_allocateAll]
    split
    next hid => rw [hid, SortedMap.get?_erase_self]
    next hid => rw [SortedMap.get?_erase_of_ne _ hid]

/-- A port that nobody claims outlives the routes that are deleted. -/
theorem stray_deletes {f : Federation} (hx : f.index.Honest) {hub : String} {peer : ExportedPort}
    (h : RouteIndex.Stray (f.index, f.world) hub peer) (ids : List RouteId) :
    (f.run (ids.map .delete)).index.Honest ∧
      RouteIndex.Stray ((f.run (ids.map .delete)).index, (f.run (ids.map .delete)).world) hub peer ∧
      ∀ id, (f.run (ids.map .delete)).index.routes.get? id =
        if id ∈ ids then none else f.index.routes.get? id := by
  induction ids generalizing f with
  | nil => exact ⟨hx, h, fun id => by rw [if_neg List.not_mem_nil]; rfl⟩
  | cons id ids ih =>
    obtain ⟨w, hfleet, hindex, hworld⟩ := f.index_deleteRoute id
    have hw : RouteIndex.Stray (f.index, w) hub peer := by
      unfold RouteIndex.Stray RouteIndex.Claims World.Offers World.serviceOf? World.pool at h ⊢
      simp only [hfleet]
      exact h
    have hx' : (f.deleteRoute id).index.Honest := by
      rw [hindex]
      exact RouteIndex.honest_handle hx w (.delete id)
    have hstray :
        RouteIndex.Stray ((f.deleteRoute id).index, (f.deleteRoute id).world) hub peer := by
      rw [hindex, hworld]
      exact RouteIndex.stray_delete hx hw id
    obtain ⟨hhonest, hstray', hroutes⟩ := ih hx' hstray
    refine ⟨hhonest, hstray', fun id' => (hroutes id').trans ?_⟩
    rw [hindex, routes_delete hx]
    by_cases hid : id' = id
    · simp [hid]
    · simp [hid]

/-- A port that nobody claims leaks once every route is deleted. -/
theorem leaks_of_stray {f : Federation} (hx : f.index.Honest) {hub : String} {peer : ExportedPort}
    (h : RouteIndex.Stray (f.index, f.world) hub peer) :
    (f.run (Move.clearing f.index.routes.keys)).Leaks hub peer := by
  obtain ⟨-, hstray, hroutes⟩ := stray_deletes hx h f.index.routes.keys
  unfold Move.clearing
  rw [run_concat]
  generalize f.run (f.index.routes.keys.map .delete) = g at hstray hroutes ⊢
  have hempty : g.index.routes = ∅ := by
    refine SortedMap.ext_get? fun id => ?_
    rw [hroutes, SortedMap.get?_empty]
    split
    · rfl
    next hid =>
      rw [SortedMap.mem_keys_iff, Option.not_isSome_iff_eq_none] at hid
      exact hid
  have hidle : g.index.allocateAll g.world = (g.index, g.world) := by
    unfold RouteIndex.allocateAll
    rw [hempty]
    rfl
  obtain ⟨hindex, hfleet⟩ := g.reconcile_eq
  rw [hidle] at hindex hfleet
  refine ⟨?_, ?_, fun pair id t hget => ?_⟩
  · unfold World.pool
    simp only [step, hfleet]
    exact hstray.1
  · rintro ⟨id, r, hroute, -⟩
    simp only [step, hindex, hempty] at hroute
    cases hroute
  · simp only [step, mappings_reconcile_of_no_routes hempty] at hget
    cases hget

/-- No port can leak, whatever routes are deleted, if every bound port is claimed; otherwise
one leaks once all routes are deleted. -/
theorem leakproof_iff_tidy {f : Federation} (hx : f.index.Honest) : f.Leakproof ↔ f.Tidy := by
  constructor
  · refine fun h => ⟨hx, RouteIndex.tidy_iff_not_stray.2 fun hub peer hstray => ?_⟩
    exact h _ _ (List.prefix_refl _) hub peer (leaks_of_stray hx hstray)
  · intro h ids ms hms
    have hcareful : ∀ pre m, pre ++ [m] <+: Move.clearing ids → m.Careful (f.run pre) :=
      fun pre m hpre => careful_clearing (hpre.subset (by simp)) _
    exact ((tidy_run_iff h _).2 hcareful ms hms).not_leaks

/-! ## Runs from the beginning -/

/-- A federation without routes on hubs where no port is bound. -/
def unused (w : World) (start count : Port) (identityFile : String) (interval : Nat) : Federation :=
  ofWorld { w with fleet := { w.fleet with ports := .ofPool (.ofCount start count) } }
    identityFile interval

theorem tidy_unused (w : World) (start count : Port) (identityFile : String) (interval : Nat) :
    (unused w start count identityFile interval).Tidy :=
  ⟨.empty, fun _ _ hp => absurd rfl hp⟩

/-- No port leaks at any time of a run, nor would if routes were deleted then, if and only if
every move of the run is careful. -/
theorem leakproof_iff_careful (w : World) (start count : Port) (identityFile : String)
    (interval : Nat) (ms : List Move) :
    (∀ pre, pre <+: ms → ((unused w start count identityFile interval).run pre).Leakproof) ↔
      ∀ pre m, pre ++ [m] <+: ms →
        m.Careful ((unused w start count identityFile interval).run pre) := by
  have ht := tidy_unused w start count identityFile interval
  rw [← tidy_run_iff ht]
  exact forall₂_congr fun pre _ => leakproof_iff_tidy (honest_run ht.honest pre)

/-! ## A port that is lost again -/

/-- A service with these ports. -/
def offering (ports : List Int) : SortedMap (String × String × String) Service :=
  (∅ : SortedMap (String × String × String) Service).insert ("a", "n", "s")
    ⟨.empty, ports.map fun port => ⟨none, none, port, none⟩⟩

/-- Hub `a` has a service with one port; hub `b` can dial `a`. -/
def supplied : World where
  fleet := { Fleet.ofPool default with
    ready := ((∅ : SortedSet String).add "a").add "b"
    graph := ⟨(∅ : SortedMap String Gateway).insert "a" ⟨true, "a:22", [], [], [], []⟩, ∅⟩
    keys := (∅ : SortedMap String String).insert "b" "key"
    services := offering [80] }
  board := .ofCapacity 1
  counters := .empty
  journal := []
  clock := default

/-- The service has these ports from now on. -/
def announce (f : Federation) (ports : List Int) : Move :=
  .outside { f.world.fleet with services := offering ports } f.world.board f.world.clock

/-- A route is taken in, and the task of its pair has synchronized. -/
def settled : Federation :=
  (unused supplied 40000 10000 "/key" 100).run
    [.apply ⟨some "n", "r", ⟨⟨"a", ⟨"n", "s"⟩⟩, ⟨"b", ⟨"n", "s"⟩⟩⟩, none⟩, .reconcile, .work 0,
      .elapse 100, .work 0]

/-- The service has gained a port, and the task has synchronized. -/
def grown : Federation :=
  settled.run [announce settled [80, 8080], .serviceChanged "a", .work 0, .elapse 100, .work 0]

/-- The service has lost the port again, and the route is deleted. -/
def shrunk : Federation :=
  grown.run [announce grown [80], .delete ⟨"n", "r"⟩, .reconcile]

/-- The port stays bound for good: the index never came to record it. -/
theorem leaks_shrunk :
    (∃ ms, shrunk = (unused supplied 40000 10000 "/key" 100).run ms) ∧
      shrunk.Leaks "b" ⟨"a", "n", "s", 8080⟩ := by
  refine ⟨⟨_, by rw [shrunk, grown, settled, ← run_append, ← run_append]⟩, ?_, ?_, ?_⟩
  · decide +kernel
  · have hroutes : shrunk.index.routes = ∅ := by decide +kernel
    rintro ⟨id, r, hroute, -⟩
    rw [hroutes] at hroute
    cases hroute
  · have hmappings : shrunk.mappings = ∅ := by decide +kernel
    intro pair id t hget
    rw [hmappings] at hget
    cases hget

end HubFederation.Federation
