import HubFederation.Proofs.Mapping.Replay
import HubFederation.RouteIndex
import Mathlib.Logic.Basic

/-!
# What the index records, and which ports it gives back

The index binds ports route by route, records them and gives back what no route records
any more. Only two things are to be told of such a step: who records a port after it, and
whether the port is still bound.

* `RouteIndex.Honest`: a record is about an indexed route, its importing hub and ports of
  the service that it exports.
* `allocate_cases`, `handle_cases`: everything that a step can do.
* `portOf?_discharge_of_kept`, `portOf?_discharge_of_freed`: which ports of a record are given back.
-/
namespace HubFederation

namespace World

theorem agrees_getPort (w : World) (owner : Owner) (hub : String) (peer : ExportedPort) :
    w.fleet.Agrees (w.getPort owner hub peer).1.fleet :=
  (allocates_getPort w owner hub peer).agrees

/-- Asking for a port binds none but that one. -/
theorem portOf?_getPort (w : World) (owner : Owner) (hub : String) (peer : ExportedPort)
    (hub' : String) (peer' : ExportedPort) :
    ((w.getPort owner hub peer).1.pool hub').portOf? peer' = (w.pool hub').portOf? peer' ∨
      (hub' = hub ∧ peer' = peer ∧ (w.pool hub').portOf? peer' = none) := by
  unfold getPort
  split
  · exact .inl rfl
  next hnone =>
    split
    next hget =>
      obtain ⟨q, hq, rfl⟩ := PortPools.get_eq_ok hget
      unfold pool record setPorts
      by_cases hhub : hub' = hub
      · subst hhub
        by_cases hpeer : peer' = peer
        · subst hpeer
          exact .inr ⟨rfl, rfl, hnone⟩
        · rw [PortPools.pool_setPool_self, PortPool.portOf?_get hq, if_neg hpeer]
          exact .inl rfl
      · rw [PortPools.pool_setPool_of_ne _ _ hhub]
        exact .inl rfl
    · exact .inl rfl

theorem portOf?_releasePort (w : World) (owner : Owner) (hub : String) (peer : ExportedPort)
    (hub' : String) (peer' : ExportedPort) :
    ((w.releasePort owner hub peer).pool hub').portOf? peer' =
      if hub' = hub ∧ peer' = peer then none else (w.pool hub').portOf? peer' := by
  unfold releasePort
  split
  · unfold pool record setPorts PortPools.release
    by_cases hhub : hub' = hub
    · subst hhub
      rw [PortPools.pool_setPool_self, PortPool.portOf?_release]
      simp only [true_and]
    · rw [PortPools.pool_setPool_of_ne _ _ hhub, if_neg fun h => hhub h.1]
  next hnone =>
    split
    next h => rw [h.1, h.2]; exact hnone
    · rfl

theorem agrees_releasePort (w : World) (owner : Owner) (hub : String) (peer : ExportedPort) :
    w.fleet.Agrees (w.releasePort owner hub peer).fleet := by
  unfold releasePort
  split <;> exact ⟨rfl, rfl, rfl, rfl⟩

end World

/-! ## Services and routes -/

/-- A route publishes a port of the service of `peer` on `hub`, if the service has it. -/
def Route.Exports (r : Route) (hub : String) (peer : ExportedPort) : Prop :=
  r.spec.target.hub = hub ∧ r.spec.source.hub = peer.hub ∧
    r.spec.source.service = ⟨peer.ns, peer.name⟩

namespace World

/-- The service of a port, if it is known. -/
def serviceOf? (w : World) (peer : ExportedPort) : Option Service :=
  w.fleet.service? peer.hub ⟨peer.ns, peer.name⟩

/-- The service of a port is known, and it has the port. -/
def Offers (w : World) (peer : ExportedPort) : Prop :=
  ∃ s, w.serviceOf? peer = some s ∧ peer ∈ s.exportedPorts peer.hub ⟨peer.ns, peer.name⟩

/-- The service of a port is known, and it does not have the port. -/
def Drops (w : World) (peer : ExportedPort) : Prop :=
  ∃ s, w.serviceOf? peer = some s ∧ peer ∉ s.exportedPorts peer.hub ⟨peer.ns, peer.name⟩

theorem Offers.known {w : World} {peer : ExportedPort} (h : w.Offers peer) :
    (w.serviceOf? peer).isSome := by
  obtain ⟨s, hs, -⟩ := h
  rw [hs]
  rfl

theorem offers_of_known {w : World} {peer : ExportedPort} (h : (w.serviceOf? peer).isSome)
    (hd : ¬ w.Drops peer) : w.Offers peer := by
  obtain ⟨s, hs⟩ := Option.isSome_iff_exists.1 h
  exact ⟨s, hs, Classical.byContradiction fun hmem => hd ⟨s, hs, hmem⟩⟩

theorem serviceOf?_of_agrees {w w' : World} (h : w.fleet.Agrees w'.fleet) (peer : ExportedPort) :
    w'.serviceOf? peer = w.serviceOf? peer := by
  unfold serviceOf?
  rw [h.service?]

theorem offers_of_agrees {w w' : World} (h : w.fleet.Agrees w'.fleet) (peer : ExportedPort) :
    w'.Offers peer ↔ w.Offers peer := by
  unfold Offers
  rw [serviceOf?_of_agrees h]

theorem drops_of_agrees {w w' : World} (h : w.fleet.Agrees w'.fleet) (peer : ExportedPort) :
    w'.Drops peer ↔ w.Drops peer := by
  unfold Drops
  rw [serviceOf?_of_agrees h]

end World

namespace RouteIndex

theorem wantedPorts?_of_agrees {w w' : World} (h : w.fleet.Agrees w'.fleet) (r : Route) :
    wantedPorts? w' r = wantedPorts? w r := by
  unfold wantedPorts?
  rw [h.service?]

theorem Exports_of_mem {w : World} {r : Route} {wanted : List ExportedPort} {peer : ExportedPort}
    (hw : wantedPorts? w r = some wanted) (h : peer ∈ wanted) :
    r.Exports r.spec.target.hub peer ∧ w.Offers peer := by
  obtain ⟨s, hs, rfl⟩ := Option.map_eq_some_iff.1 hw
  obtain ⟨p, hp, rfl⟩ := List.mem_map.1 h
  exact ⟨⟨rfl, rfl, rfl⟩, s, hs, h⟩

/-- A route wants those ports of the service that it exports which the service has. -/
theorem mem_wanted_iff {w : World} {r : Route} {hub : String} {peer : ExportedPort}
    (h : r.Exports hub peer) : (∃ wanted, wantedPorts? w r = some wanted ∧ peer ∈ wanted) ↔
      w.Offers peer := by
  unfold wantedPorts? World.Offers World.serviceOf?
  simp only [h.2.1, h.2.2, Option.map_eq_some_iff]
  constructor
  · rintro ⟨_, ⟨s, hs, rfl⟩, hmem⟩
    exact ⟨s, hs, hmem⟩
  · rintro ⟨s, hs, hmem⟩
    exact ⟨_, ⟨s, hs, rfl⟩, hmem⟩

/-! ## Records -/

/-- Whether a record names a port. -/
def Names (recorded : Option (String × List ExportedPort)) (hub : String) (peer : ExportedPort) :
    Prop :=
  ∃ peers, recorded = some (hub, peers) ∧ peer ∈ peers

/-- A route records a port. -/
def Records (x : RouteIndex) (id : RouteId) (hub : String) (peer : ExportedPort) : Prop :=
  Names (x.allocated.get? id) hub peer

/-- An indexed route publishes the port, if its service has it. -/
def Exports (x : RouteIndex) (hub : String) (peer : ExportedPort) : Prop :=
  ∃ id r, x.routes.get? id = some r ∧ r.Exports hub peer

theorem isRecorded_iff {x : RouteIndex} {hub : String} {peer : ExportedPort} :
    x.isRecorded hub peer = true ↔ ∃ id, x.Records id hub peer := by
  unfold isRecorded Records Names SortedMap.values
  simp only [List.any_eq_true, List.mem_map, Bool.and_eq_true, decide_eq_true_eq,
    List.contains_eq_mem]
  constructor
  · rintro ⟨_, ⟨⟨id, hub', peers⟩, hmem, rfl⟩, rfl, hpeer⟩
    exact ⟨id, peers, SortedMap.mem_entries_iff.1 hmem, hpeer⟩
  · rintro ⟨id, peers, hget, hpeer⟩
    exact ⟨(hub, peers), ⟨(id, hub, peers), SortedMap.mem_entries_iff.2 hget, rfl⟩, rfl, hpeer⟩

/-- Enters what was bound for a route. -/
def record (x : RouteIndex) (id : RouteId) (hub : String) (bound : List ExportedPort) :
    RouteIndex :=
  { x with allocated := x.allocated.insert id (hub, bound) }

theorem records_record (x : RouteIndex) (id : RouteId) (hub : String) (bound : List ExportedPort)
    (id' : RouteId) (hub' : String) (peer : ExportedPort) :
    (x.record id hub bound).Records id' hub' peer ↔
      if id' = id then hub' = hub ∧ peer ∈ bound else x.Records id' hub' peer := by
  unfold Records record
  split
  next h =>
    subst h
    rw [SortedMap.get?_insert_self]
    constructor
    · rintro ⟨_, ⟨⟩, hpeer⟩
      exact ⟨rfl, hpeer⟩
    · rintro ⟨rfl, hpeer⟩
      exact ⟨bound, rfl, hpeer⟩
  next h => rw [SortedMap.get?_insert_of_ne _ _ h]

/-- Every record belongs to an indexed route: it is about its importing hub, and about ports
of the service that it exports. -/
def Honest (x : RouteIndex) : Prop :=
  ∀ id hub peers, x.allocated.get? id = some (hub, peers) →
    ∃ r, x.routes.get? id = some r ∧ r.spec.target.hub = hub ∧ ∀ peer ∈ peers, r.Exports hub peer

theorem Honest.exports {x : RouteIndex} (h : x.Honest) {id : RouteId} {hub : String}
    {peer : ExportedPort} (hr : x.Records id hub peer) :
    ∃ r, x.routes.get? id = some r ∧ r.Exports hub peer := by
  obtain ⟨peers, hget, hmem⟩ := hr
  obtain ⟨r, hroute, -, hall⟩ := h id hub peers hget
  exact ⟨r, hroute, hall peer hmem⟩

/-- What is not indexed has no record. -/
theorem Honest.unrecorded {x : RouteIndex} (h : x.Honest) {id : RouteId}
    (hr : x.routes.get? id = none) : x.allocated.get? id = none := by
  refine Option.eq_none_iff_forall_ne_some.2 fun e he => ?_
  obtain ⟨r, hroute, -⟩ := h id e.1 e.2 he
  rw [hr] at hroute
  cases hroute

theorem Honest.empty : empty.Honest := fun _ _ _ h => nomatch h

/-! ## Giving ports back -/

theorem agrees_release (x : RouteIndex) (w : World) (hub : String) (peers : List ExportedPort) :
    w.fleet.Agrees (x.release w hub peers).fleet := by
  unfold release
  induction peers generalizing w with
  | nil => exact .refl _
  | cons peer peers ih =>
    rw [List.foldl_cons]
    split
    · exact ih w
    · exact (w.agrees_releasePort none hub peer).trans (ih _)

/-- A port is given back if it is asked for and nobody records it. -/
theorem portOf?_release (x : RouteIndex) (w : World) (hub : String) (peers : List ExportedPort)
    (hub' : String) (peer' : ExportedPort) :
    ((x.release w hub peers).pool hub').portOf? peer' =
      if hub' = hub ∧ peer' ∈ peers ∧ x.isRecorded hub' peer' = false then none
      else (w.pool hub').portOf? peer' := by
  unfold release
  induction peers generalizing w with
  | nil => simp
  | cons peer peers ih =>
    rw [List.foldl_cons, ih]
    by_cases hrec : x.isRecorded hub peer
    · rw [if_pos hrec]
      refine if_congr ?_ rfl rfl
      constructor
      · exact fun h => ⟨h.1, List.mem_cons_of_mem _ h.2.1, h.2.2⟩
      · rintro ⟨rfl, hmem, hfree⟩
        refine ⟨rfl, (List.mem_cons.1 hmem).resolve_left fun he => ?_, hfree⟩
        rw [he, hrec] at hfree
        cases hfree
    · rw [if_neg hrec, World.portOf?_releasePort]
      by_cases hself : hub' = hub ∧ peer' = peer
      · obtain ⟨rfl, rfl⟩ := hself
        simp [hrec]
      · rw [if_neg hself]
        refine if_congr ?_ rfl rfl
        constructor
        · exact fun h => ⟨h.1, List.mem_cons_of_mem _ h.2.1, h.2.2⟩
        · exact fun h =>
            ⟨h.1, (List.mem_cons.1 h.2.1).resolve_left fun he => hself ⟨h.1, he⟩, h.2.2⟩

/-- Gives back the ports of a record. -/
def discharge (x : RouteIndex) (w : World) : Option (String × List ExportedPort) → World
  | some (hub, peers) => x.release w hub peers
  | none => w

theorem agrees_discharge (x : RouteIndex) (w : World)
    (recorded : Option (String × List ExportedPort)) :
    w.fleet.Agrees (x.discharge w recorded).fleet := by
  cases recorded with
  | none => exact .refl _
  | some e => exact x.agrees_release w e.1 e.2

/-- A port that is not named, or recorded by a route, is not given back. -/
theorem portOf?_discharge_of_kept {x : RouteIndex} {w : World}
    {recorded : Option (String × List ExportedPort)} {hub : String} {peer : ExportedPort}
    (h : ¬ Names recorded hub peer ∨ ∃ id, x.Records id hub peer) :
    ((x.discharge w recorded).pool hub).portOf? peer = (w.pool hub).portOf? peer := by
  cases recorded with
  | none => rfl
  | some e =>
    unfold discharge
    rw [portOf?_release, if_neg]
    rintro ⟨rfl, hmem, hfree⟩
    rcases h with h | h
    · exact h ⟨e.2, rfl, hmem⟩
    · rw [isRecorded_iff.2 h] at hfree
      cases hfree

/-- A port that is named, and not recorded by any route, is given back. -/
theorem portOf?_discharge_of_freed {x : RouteIndex} {w : World}
    {recorded : Option (String × List ExportedPort)} {hub : String} {peer : ExportedPort}
    (h : Names recorded hub peer) (hfree : ¬ ∃ id, x.Records id hub peer) :
    ((x.discharge w recorded).pool hub).portOf? peer = none := by
  obtain ⟨peers, rfl, hmem⟩ := h
  unfold discharge
  rw [portOf?_release, if_pos]
  exact ⟨rfl, hmem, Bool.eq_false_iff.2 fun hrec => hfree (isRecorded_iff.1 hrec)⟩

/-- The index owes a port that a route which is gone had recorded, or that its service has. -/
def Owes (w : World) (route : Route) (recorded : Option (String × List ExportedPort)) (hub : String)
    (peer : ExportedPort) : Prop :=
  Names recorded hub peer ∨ (route.Exports hub peer ∧ w.Offers peer)

theorem releaseRoute_eq (x : RouteIndex) (w : World) (route : Route)
    (recorded : Option (String × List ExportedPort)) :
    x.releaseRoute w route recorded = x.discharge (x.discharge w recorded)
      ((wantedPorts? w route).map fun peers => (route.spec.target.hub, peers)) := by
  rw [← wantedPorts?_of_agrees (x.agrees_discharge w recorded)]
  unfold releaseRoute discharge
  cases recorded with
  | none => cases h : wantedPorts? w route <;> simp only [h, Option.map]
  | some e => cases h : wantedPorts? (x.release w e.1 e.2) route <;> simp only [h, Option.map]

theorem agrees_releaseRoute (x : RouteIndex) (w : World) (route : Route)
    (recorded : Option (String × List ExportedPort)) :
    w.fleet.Agrees (x.releaseRoute w route recorded).fleet := by
  rw [releaseRoute_eq]
  exact (x.agrees_discharge w recorded).trans (x.agrees_discharge _ _)

theorem names_wanted_iff {w : World} {route : Route} {hub : String} {peer : ExportedPort} :
    Names ((wantedPorts? w route).map fun peers => (route.spec.target.hub, peers)) hub peer ↔
      route.Exports hub peer ∧ w.Offers peer := by
  constructor
  · rintro ⟨peers, hw, hmem⟩
    obtain ⟨wanted, hwanted, he⟩ := Option.map_eq_some_iff.1 hw
    cases he
    exact Exports_of_mem hwanted hmem
  · rintro ⟨hexp, hoffers⟩
    obtain ⟨wanted, hwanted, hmem⟩ := (mem_wanted_iff hexp).2 hoffers
    exact ⟨wanted, by rw [hwanted, hexp.1]; rfl, hmem⟩

theorem portOf?_releaseRoute_of_kept {x : RouteIndex} {w : World} {route : Route}
    {recorded : Option (String × List ExportedPort)} {hub : String} {peer : ExportedPort}
    (h : ¬ Owes w route recorded hub peer ∨ ∃ id, x.Records id hub peer) :
    ((x.releaseRoute w route recorded).pool hub).portOf? peer = (w.pool hub).portOf? peer := by
  rw [releaseRoute_eq, portOf?_discharge_of_kept, portOf?_discharge_of_kept]
  · exact h.imp_left fun h hn => h (.inl hn)
  · exact h.imp_left fun h hn => h (.inr (names_wanted_iff.1 hn))

theorem portOf?_releaseRoute_of_freed {x : RouteIndex} {w : World} {route : Route}
    {recorded : Option (String × List ExportedPort)} {hub : String} {peer : ExportedPort}
    (h : Owes w route recorded hub peer) (hfree : ¬ ∃ id, x.Records id hub peer) :
    ((x.releaseRoute w route recorded).pool hub).portOf? peer = none := by
  rw [releaseRoute_eq]
  by_cases hw : route.Exports hub peer ∧ w.Offers peer
  · exact portOf?_discharge_of_freed (names_wanted_iff.2 hw) hfree
  · rw [portOf?_discharge_of_kept (.inl fun hn => hw (names_wanted_iff.1 hn))]
    exact portOf?_discharge_of_freed (h.resolve_right hw) hfree

/-! ## Binding ports -/

/-- `w'` came of binding `wanted` on `hub`, and `bound` are those of them that are bound. -/
structure Binds (hub : String) (wanted : List ExportedPort) (w w' : World)
    (bound : List ExportedPort) : Prop where
  agrees : w.fleet.Agrees w'.fleet
  kept : ∀ {hub' peer port}, (w.pool hub').portOf? peer = some port →
    (w'.pool hub').portOf? peer = some port
  within : bound ⊆ wanted
  held : ∀ peer ∈ wanted, (w.pool hub).portOf? peer ≠ none → peer ∈ bound
  found : ∀ peer ∈ bound, (w'.pool hub).portOf? peer ≠ none
  fresh : ∀ {hub' peer}, (w'.pool hub').portOf? peer ≠ none →
    (w.pool hub').portOf? peer ≠ none ∨ (hub' = hub ∧ peer ∈ bound)

theorem Binds.nil (hub : String) (w : World) : Binds hub [] w w [] :=
  ⟨⟨rfl, rfl, rfl, rfl⟩, id, List.Subset.refl _, by simp, by simp, .inl⟩

/-- One more port is asked for. -/
theorem Binds.cons {hub : String} {peer : ExportedPort} {wanted bound : List ExportedPort}
    {w w₁ w' : World} {r : Except PortError Port} (hg : w.getPort none hub peer = (w₁, r))
    (h : Binds hub wanted w₁ w' bound) :
    Binds hub (peer :: wanted) w w'
      (match r with | .ok _ => peer :: bound | .error _ => bound) := by
  have hagrees := w.agrees_getPort none hub peer
  have hone := w.portOf?_getPort none hub peer
  rw [hg] at hagrees hone
  have hkept {hub' peer' port} (hp : (w.pool hub').portOf? peer' = some port) :
      (w₁.pool hub').portOf? peer' = some port := by
    rcases hone hub' peer' with he | ⟨-, -, hnone⟩
    · rw [he, hp]
    · rw [hp] at hnone
      cases hnone
  cases r with
  | ok port =>
    have hport : (w₁.pool hub).portOf? peer = some port := World.portOf?_of_getPort hg
    refine ⟨hagrees.trans h.agrees, fun hp => h.kept (hkept hp), ?_, ?_, ?_, ?_⟩
    · exact List.cons_subset_cons _ h.within
    · intro peer' hmem hp
      rcases List.mem_cons.1 hmem with rfl | hmem
      · exact List.mem_cons_self ..
      · obtain ⟨port', hport'⟩ := Option.ne_none_iff_exists'.1 hp
        refine List.mem_cons_of_mem _ (h.held peer' hmem ?_)
        rw [hkept hport']
        exact Option.some_ne_none _
    · intro peer' hmem
      rcases List.mem_cons.1 hmem with rfl | hmem
      · rw [h.kept hport]
        exact Option.some_ne_none _
      · exact h.found peer' hmem
    · intro hub' peer' hp
      rcases h.fresh hp with hp | ⟨rfl, hmem⟩
      · rcases hone hub' peer' with he | ⟨rfl, rfl, -⟩
        · rw [he] at hp
          exact .inl hp
        · exact .inr ⟨rfl, List.mem_cons_self ..⟩
      · exact .inr ⟨rfl, List.mem_cons_of_mem _ hmem⟩
  | error e =>
    obtain ⟨rfl, hnone, -⟩ := World.full_of_getPort hg
    refine ⟨h.agrees, h.kept, List.subset_cons_of_subset _ h.within, ?_, h.found, h.fresh⟩
    intro peer' hmem hp
    rcases List.mem_cons.1 hmem with rfl | hmem
    · exact absurd hnone hp
    · exact h.held peer' hmem hp

/-- Binding ports one after the other. -/
theorem binds_allocateOne (hub : String) (wanted : List ExportedPort) (a : Allocation) :
    ∃ bound, (wanted.foldl (allocateOne hub) a).bound = a.bound ++ bound ∧
      Binds hub wanted a.world (wanted.foldl (allocateOne hub) a).world bound := by
  induction wanted generalizing a with
  | nil => exact ⟨[], (List.append_nil _).symm, .nil hub a.world⟩
  | cons peer wanted ih =>
    cases hg : a.world.getPort none hub peer with
    | mk w r =>
      obtain ⟨bound, hbound, hbinds⟩ := ih (allocateOne hub a peer)
      rw [List.foldl_cons, hbound]
      cases r with
      | ok port =>
        have hone : allocateOne hub a peer = { a with world := w, bound := a.bound ++ [peer] } := by
          unfold allocateOne
          rw [hg]
        rw [hone] at hbinds ⊢
        exact ⟨peer :: bound, by simp, hbinds.cons hg⟩
      | error e =>
        have hone : allocateOne hub a peer = { a with world := w, error := some e } := by
          unfold allocateOne
          rw [hg]
        rw [hone] at hbinds ⊢
        exact ⟨bound, rfl, hbinds.cons hg⟩

/-- Reporting leaves the hubs alone. -/
theorem Binds.report {hub : String} {wanted bound : List ExportedPort} {w w' : World}
    (h : Binds hub wanted w w' bound) (id : RouteId) (r : Report) :
    Binds hub wanted w (w'.report id r) bound :=
  ⟨h.agrees, h.kept, h.within, h.held, h.found, h.fresh⟩

/-! ## One route -/

/-- The ports of a route are bound and recorded; what was recorded before is given back. -/
theorem allocate_eq {x : RouteIndex} {w : World} {id : RouteId} {r : Route}
    {wanted : List ExportedPort} (hroute : x.routes.get? id = some r)
    (hready : w.fleet.isReady r.spec.target.hub) (hwanted : wantedPorts? w r = some wanted) :
    allocate (x, w) id =
      let a := wanted.foldl (allocateOne r.spec.target.hub) ⟨w, [], none⟩
      let x' := x.record id r.spec.target.hub a.bound
      (x', x'.discharge (a.world.report id (Report.empty.add (finding r.spec.target.hub a.error)))
        (x.allocated.get? id)) := by
  unfold allocate
  simp only [hroute, hready, hwanted, Bool.not_true, Bool.false_eq_true, if_false]
  cases x.allocated.get? id <;> rfl

/-- Nothing happens for a route that is not indexed, whose importing hub is not ready or
whose service is not known. Otherwise its ports are bound and recorded, and what it had
recorded is given back. -/
theorem allocate_cases (x : RouteIndex) (w : World) (id : RouteId) :
    (allocate (x, w) id = (x, w) ∧ ∀ r, x.routes.get? id = some r →
      w.fleet.isReady r.spec.target.hub = false ∨ wantedPorts? w r = none) ∨
    ∃ r wanted w₁ bound, x.routes.get? id = some r ∧ w.fleet.isReady r.spec.target.hub ∧
      wantedPorts? w r = some wanted ∧ Binds r.spec.target.hub wanted w w₁ bound ∧
      allocate (x, w) id = (x.record id r.spec.target.hub bound,
        (x.record id r.spec.target.hub bound).discharge w₁ (x.allocated.get? id)) := by
  cases hroute : x.routes.get? id with
  | none =>
    refine .inl ⟨?_, fun r h => nomatch h⟩
    unfold allocate
    simp only [hroute]
  | some r =>
    cases hready : w.fleet.isReady r.spec.target.hub with
    | false =>
      refine .inl ⟨?_, fun r' h => by cases h; exact .inl hready⟩
      unfold allocate
      simp only [hroute, hready, Bool.not_false, if_true]
    | true =>
      cases hwanted : wantedPorts? w r with
      | none =>
        refine .inl ⟨?_, fun r' h => by cases h; exact .inr hwanted⟩
        unfold allocate
        simp only [hroute, hready, hwanted, Bool.not_true, Bool.false_eq_true, if_false]
      | some wanted =>
        obtain ⟨bound, hbound, hb⟩ := binds_allocateOne r.spec.target.hub wanted ⟨w, [], none⟩
        rw [allocate_eq hroute hready hwanted]
        generalize wanted.foldl (allocateOne r.spec.target.hub) ⟨w, [], none⟩ = a at hbound hb ⊢
        obtain rfl : a.bound = bound := hbound
        exact .inr ⟨r, wanted, _, a.bound, rfl, hready, hwanted,
          hb.report id (Report.empty.add (finding r.spec.target.hub a.error)), rfl⟩

theorem agrees_allocate (x : RouteIndex) (w : World) (id : RouteId) :
    w.fleet.Agrees (allocate (x, w) id).2.fleet := by
  rcases x.allocate_cases w id with ⟨he, -⟩ | ⟨r, wanted, w₁, bound, -, -, -, hb, he⟩
  · rw [he]
    exact .refl _
  · rw [he]
    exact hb.agrees.trans (agrees_discharge _ _ _)

theorem routes_allocate (x : RouteIndex) (w : World) (id : RouteId) :
    (allocate (x, w) id).1.routes = x.routes := by
  rcases x.allocate_cases w id with ⟨he, -⟩ | ⟨r, wanted, w₁, bound, -, -, -, -, he⟩ <;> rw [he]
  rfl

theorem honest_allocate {x : RouteIndex} (h : x.Honest) (w : World) (id : RouteId) :
    (allocate (x, w) id).1.Honest := by
  rcases x.allocate_cases w id with ⟨he, -⟩ | ⟨r, wanted, w₁, bound, hroute, -, hw, hb, he⟩
  · rw [he]
    exact h
  · rw [he]
    intro id' hub peers hget
    rw [record] at hget
    rcases SortedMap.get?_insert_eq_some.1 hget with ⟨rfl, hself⟩ | ⟨-, hget⟩
    · cases hself
      exact ⟨r, hroute, rfl, fun peer hmem => (Exports_of_mem hw (hb.within hmem)).1⟩
    · exact h id' hub peers hget

/-- A bound port that its service did not drop stays bound. -/
theorem bound_allocate {x : RouteIndex} (hx : x.Honest) {w : World} {hub : String}
    {peer : ExportedPort} {port : Port} (hd : ¬ w.Drops peer)
    (hp : (w.pool hub).portOf? peer = some port) (id : RouteId) :
    ((allocate (x, w) id).2.pool hub).portOf? peer = some port := by
  rcases x.allocate_cases w id with ⟨he, -⟩ | ⟨r, wanted, w₁, bound, hroute, -, hw, hb, he⟩
  · rw [he]
    exact hp
  · rw [he, portOf?_discharge_of_kept, hb.kept hp]
    refine or_iff_not_imp_left.2 fun hn => ⟨id, ?_⟩
    -- The route had recorded the port, so it wants and records it again.
    have hrec : x.Records id hub peer := Classical.not_not.1 hn
    obtain ⟨r', hroute', hexp⟩ := hx.exports hrec
    rw [hroute] at hroute'
    cases hroute'
    have hknown : (w.serviceOf? peer).isSome := by
      unfold World.serviceOf?
      rw [← hexp.2.1, ← hexp.2.2]
      obtain ⟨s, hs, -⟩ := Option.map_eq_some_iff.1 hw
      rw [hs]
      rfl
    obtain ⟨wanted', hw', hmem⟩ := (mem_wanted_iff hexp).2 (World.offers_of_known hknown hd)
    rw [hw] at hw'
    cases hw'
    obtain rfl := hexp.1
    rw [records_record, if_pos rfl]
    exact ⟨rfl, hb.held peer hmem (by rw [hp]; exact Option.some_ne_none _)⟩

/-! ## All routes -/

theorem foldl_allocate {P : RouteIndex × World → Prop} (hstep : ∀ s id, P s → P (allocate s id))
    {s : RouteIndex × World} (h : P s) (ids : List RouteId) : P (ids.foldl allocate s) := by
  induction ids generalizing s with
  | nil => exact h
  | cons id ids ih => exact ih (hstep s id h)

/-- What one route preserves, all routes preserve. -/
theorem allocateAll_induction {P : RouteIndex × World → Prop}
    (hstep : ∀ s id, P s → P (allocate s id)) {x : RouteIndex} {w : World} (h : P (x, w)) :
    P (x.allocateAll w) :=
  foldl_allocate hstep h x.routes.keys

/-- What a route brings about, and what all routes preserve, holds in the end. -/
theorem allocateAll_visits {P Q : RouteIndex × World → Prop} (id : RouteId)
    (hP : ∀ s id, P s → P (allocate s id)) (hvisit : ∀ s, P s → Q (allocate s id))
    (hQ : ∀ s id, Q s → Q (allocate s id)) {x : RouteIndex} {w : World} (h : P (x, w))
    (hid : (x.routes.get? id).isSome) : Q (x.allocateAll w) := by
  obtain ⟨before, after, hsplit⟩ := List.append_of_mem (SortedMap.mem_keys_iff.2 hid)
  unfold allocateAll
  rw [hsplit, List.foldl_append]
  exact foldl_allocate hQ (hvisit _ (foldl_allocate hP h before)) after

theorem agrees_allocateAll (x : RouteIndex) (w : World) :
    w.fleet.Agrees (x.allocateAll w).2.fleet :=
  allocateAll_induction (P := fun s => w.fleet.Agrees s.2.fleet)
    (fun s id h => h.trans (agrees_allocate s.1 s.2 id)) (.refl _)

theorem routes_allocateAll (x : RouteIndex) (w : World) : (x.allocateAll w).1.routes = x.routes :=
  allocateAll_induction (P := fun s => s.1.routes = x.routes)
    (fun s id h => (routes_allocate s.1 s.2 id).trans h) rfl

theorem honest_allocateAll {x : RouteIndex} (h : x.Honest) (w : World) :
    (x.allocateAll w).1.Honest :=
  allocateAll_induction (P := fun s => s.1.Honest) (fun s id h => honest_allocate h s.2 id) h

/-! ## Changes -/

/-- What can be done to the index from outside. -/
inductive Request where
  | apply (route : Route)
  | delete (id : RouteId)

def handle (x : RouteIndex) (w : World) : Request → Change
  | .apply route => x.apply w route
  | .delete id => x.delete w id

/-- The route that a request is about, unless the index has it like that already. -/
def touched? (x : RouteIndex) : Request → Option RouteId
  | .apply route => route.id?.filter fun id =>
      !(route.spec.isValid && (x.routes.get? id).map (·.spec) = some route.spec)
  | .delete id => some id

/-- Replaces the indexed routes by others that differ from them in one route, `id`. -/
def exchange (x : RouteIndex) (w : World) (id : RouteId) (routes : SortedMap RouteId Route) :
    RouteIndex × World :=
  let s := allocateAll ⟨routes, x.allocated.erase id⟩ w
  match x.routes.get? id with
  | some old => (s.1, s.1.releaseRoute s.2 old (x.allocated.get? id))
  | none => s

theorem remove_cases {x : RouteIndex} (hx : x.Honest) (w : World) (id : RouteId) :
    (x.routes.get? id = none ∧ (x.remove w id).index = x ∧ (x.remove w id).world = w) ∨
      ((x.remove w id).index, (x.remove w id).world) = x.exchange w id (x.routes.erase id) := by
  unfold remove exchange
  cases hroute : x.routes.get? id with
  | none =>
    have hnone := hx.unrecorded hroute
    have herase : x.allocated.erase id = x.allocated := by
      refine SortedMap.ext_get? fun id' => ?_
      by_cases hid : id' = id
      · rw [hid, SortedMap.get?_erase_self, hnone]
      · rw [SortedMap.get?_erase_of_ne _ hid]
    simp only [hroute, hnone, herase]
    exact .inl ⟨trivial, trivial, trivial⟩
  | some old =>
    simp only [hroute]
    exact .inr trivial

theorem touched?_apply {x : RouteIndex} {route : Route} {id : RouteId} (h : route.id? = some id) :
    x.touched? (.apply route) =
      if route.spec.isValid ∧ (x.routes.get? id).map (·.spec) = some route.spec then none
      else some id := by
  simp only [touched?]
  rw [h, Option.filter_some]
  by_cases hspec : (x.routes.get? id).map (·.spec) = some route.spec
  · cases route.spec.isValid <;> simp only [hspec, decide_true] <;> rfl
  · cases route.spec.isValid <;> simp only [hspec, decide_false, and_false] <;> rfl

/-- A request about a route that the index has as it should be changes nothing; any other
one exchanges the route. -/
theorem handle_cases {x : RouteIndex} (hx : x.Honest) (w : World) (c : Request) :
    ((∀ id, x.touched? c = some id → x.routes.get? id = none) ∧
      (x.handle w c).index = x ∧ (x.handle w c).world = w) ∨
    ∃ id routes, x.touched? c = some id ∧ (∀ id' ≠ id, routes.get? id' = x.routes.get? id') ∧
      ((x.handle w c).index, (x.handle w c).world) = x.exchange w id routes := by
  have hremove (id : RouteId) (hid : x.touched? c = some id)
      (h : x.handle w c = x.remove w id) :
      ((∀ id, x.touched? c = some id → x.routes.get? id = none) ∧
        (x.handle w c).index = x ∧ (x.handle w c).world = w) ∨
      ∃ id routes, x.touched? c = some id ∧ (∀ id' ≠ id, routes.get? id' = x.routes.get? id') ∧
        ((x.handle w c).index, (x.handle w c).world) = x.exchange w id routes := by
    rw [h, hid]
    rcases remove_cases hx w id with ⟨hroute, hidle⟩ | he
    · exact .inl ⟨fun id' h => by cases h; exact hroute, hidle⟩
    · exact .inr ⟨id, _, rfl, fun id' hne => SortedMap.get?_erase_of_ne _ hne, he⟩
  cases c with
  | delete id => exact hremove id rfl rfl
  | apply route =>
    cases hid : route.id? with
    | none =>
      refine .inl ⟨fun id h => ?_, ?_⟩
      · simp [touched?, hid] at h
      · simp [handle, apply, hid]
    | some id =>
      cases hvalid : route.spec.isValid with
      | false =>
        refine hremove id ?_ ?_
        · simp [touched?_apply hid, hvalid]
        · simp [handle, apply, hid, hvalid]
      | true =>
        by_cases hspec : (x.routes.get? id).map (·.spec) = some route.spec
        · refine .inl ⟨fun id' h => ?_, ?_⟩
          · rw [touched?_apply hid, if_pos ⟨hvalid, hspec⟩] at h
            cases h
          · simp [handle, apply, hid, hvalid, hspec]
        · refine .inr ⟨id, x.routes.insert id route, ?_,
            fun id' hne => SortedMap.get?_insert_of_ne _ _ hne, ?_⟩
          · rw [touched?_apply hid, if_neg fun h => hspec h.2]
          · simp only [handle, apply, hid, hvalid, hspec, exchange, Bool.not_true,
              Bool.false_eq_true, if_false]
            cases x.routes.get? id <;> rfl

theorem exchange_fst (x : RouteIndex) (w : World) (id : RouteId)
    (routes : SortedMap RouteId Route) :
    (x.exchange w id routes).1 = (allocateAll ⟨routes, x.allocated.erase id⟩ w).1 := by
  unfold exchange
  cases x.routes.get? id <;> rfl

/-- Without the record of `id`, an index is honest about any routes that differ in it only. -/
theorem Honest.erase {x : RouteIndex} (h : x.Honest) {id : RouteId}
    {routes : SortedMap RouteId Route}
    (hroutes : ∀ id' ≠ id, routes.get? id' = x.routes.get? id') :
    (⟨routes, x.allocated.erase id⟩ : RouteIndex).Honest := by
  intro id' hub peers hget
  obtain ⟨hid, hget⟩ := SortedMap.get?_erase_eq_some.1 hget
  obtain ⟨r, hroute, hr⟩ := h id' hub peers hget
  exact ⟨r, (hroutes id' hid).trans hroute, hr⟩

theorem records_erase {x : RouteIndex} {routes : SortedMap RouteId Route} {id id' : RouteId}
    {hub : String} {peer : ExportedPort} :
    (⟨routes, x.allocated.erase id⟩ : RouteIndex).Records id' hub peer ↔
      id' ≠ id ∧ x.Records id' hub peer := by
  unfold Records
  by_cases hid : id' = id
  · rw [hid, SortedMap.get?_erase_self]
    exact ⟨fun ⟨_, h, _⟩ => (nomatch h), fun h => absurd rfl h.1⟩
  · rw [SortedMap.get?_erase_of_ne _ hid]
    exact ⟨fun h => ⟨hid, h⟩, fun h => h.2⟩

theorem honest_handle {x : RouteIndex} (hx : x.Honest) (w : World) (c : Request) :
    (x.handle w c).index.Honest := by
  rcases handle_cases hx w c with ⟨-, hindex, -⟩ | ⟨id, routes, -, hroutes, he⟩
  · rw [hindex]
    exact hx
  · rw [show (x.handle w c).index = _ from congrArg Prod.fst he, exchange_fst]
    exact honest_allocateAll (hx.erase hroutes) w

/-! ## Whatever happens -/

/-- An index and a world that came about by requests, by binding the ports of all routes
and by what happens outside. -/
inductive Reached (outside : World → World → Prop) : RouteIndex → World → Prop where
  | start (w : World) : Reached outside .empty w
  | handle {x : RouteIndex} {w : World} (before : Reached outside x w) (c : Request) :
    Reached outside (x.handle w c).index (x.handle w c).world
  | allocateAll {x : RouteIndex} {w : World} (before : Reached outside x w) :
    Reached outside (x.allocateAll w).1 (x.allocateAll w).2
  | outside {x : RouteIndex} {w w' : World} (before : Reached outside x w) (h : outside w w') :
    Reached outside x w'

theorem Reached.honest {outside : World → World → Prop} {x : RouteIndex} {w : World}
    (h : Reached outside x w) : x.Honest := by
  induction h with
  | start => exact .empty
  | handle _ c ih => exact honest_handle ih _ c
  | allocateAll _ ih => exact honest_allocateAll ih _
  | outside _ _ ih => exact ih

end RouteIndex

end HubFederation
