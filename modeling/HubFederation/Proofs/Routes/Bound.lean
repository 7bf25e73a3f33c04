import HubFederation.Proofs.Federation.Jobs
import HubFederation.Proofs.Mapping.Drifting
import HubFederation.Proofs.Routes.Stable

/-!
# Recorded ports are bound

Tasks bind ports as well as the index does, and a binding that is found on a hub may move a
peer to another port behind the index's back. But nobody except the index gives ports back, and
it looks into its records first. So what a route records stays bound, to whichever port.

* `backed_allocate`, `backed_handle`, `Backed.drifts`: every step keeps recorded ports bound.
* `recorded_bound`: so does every history.
* `lived_run`: every run of a federation is such a history.
-/
namespace HubFederation

namespace RouteIndex

/-! ## Steps of the index -/

/-- Every port that a route records is bound on the hub that it is recorded for. -/
structure Backed (s : RouteIndex × World) : Prop where
  bound : ∀ {id hub peer}, s.1.Records id hub peer → (s.2.pool hub).portOf? peer ≠ none
  used : s.2.Used

theorem Backed.drifts {x : RouteIndex} {w w' : World} (h : Backed (x, w)) (hd : w.Drifts w') :
    Backed (x, w') :=
  ⟨fun hrec => hd.keeps.bound (h.bound hrec), hd.keeps.used h.used⟩

theorem used_release (x : RouteIndex) {w : World} (hu : w.Used) (hub : String)
    (peers : List ExportedPort) : (x.release w hub peers).Used := by
  unfold release
  induction peers generalizing w with
  | nil => exact hu
  | cons peer peers ih =>
    rw [List.foldl_cons]
    split
    · exact ih hu
    · exact ih (World.used_releasePort hu none hub peer)

theorem used_discharge (x : RouteIndex) {w : World} (hu : w.Used)
    (recorded : Option (String × List ExportedPort)) : (x.discharge w recorded).Used := by
  cases recorded with
  | none => exact hu
  | some e => exact used_release x hu e.1 e.2

theorem used_allocateOne (hub : String) (wanted : List ExportedPort) (a : Allocation)
    (hu : a.world.Used) : (wanted.foldl (allocateOne hub) a).world.Used := by
  induction wanted generalizing a with
  | nil => exact hu
  | cons peer wanted ih =>
    refine ih (allocateOne hub a peer) ?_
    have hget := (a.world.keeps_getPort none hub peer).used hu
    unfold allocateOne
    split
    next h => rw [h] at hget; exact hget
    next h => rw [h] at hget; exact hget

/-- What a route records anew it has just bound, and what others record is not given back. -/
theorem backed_allocate {s : RouteIndex × World} (h : Backed s) (id : RouteId) :
    Backed (allocate s id) := by
  obtain ⟨x, w⟩ := s
  rcases x.allocate_cases w id with ⟨he, -⟩ | ⟨r, wanted, w₁, bound, hroute, hready, hw, hb, he⟩
  · rw [he]
    exact h
  · refine ⟨fun {id' hub peer} hrec => ?_, ?_⟩
    · rw [he] at hrec ⊢
      rw [portOf?_discharge_of_kept (.inr ⟨id', hrec⟩)]
      rw [records_record] at hrec
      split at hrec
      · obtain ⟨rfl, hmem⟩ := hrec
        exact hb.found peer hmem
      · obtain ⟨port, hport⟩ := Option.ne_none_iff_exists'.1 (h.bound hrec)
        rw [hb.kept hport]
        exact Option.some_ne_none port
    · have hused := used_allocateOne r.spec.target.hub wanted ⟨w, [], none⟩ h.used
      rw [allocate_eq hroute hready hw]
      refine used_discharge _ ?_ _
      exact hused

theorem backed_allocateAll {x : RouteIndex} {w : World} (h : Backed (x, w)) :
    Backed (x.allocateAll w) :=
  allocateAll_induction (P := Backed) (fun _ id h => backed_allocate h id) h

/-- Without the record of a route, the others are backed still; they are bound anew before
anything is given back. -/
theorem backed_exchange {x : RouteIndex} {w : World} (h : Backed (x, w)) (id : RouteId)
    (routes : SortedMap RouteId Route) : Backed (x.exchange w id routes) := by
  have herased : Backed (⟨routes, x.allocated.erase id⟩, w) :=
    ⟨fun hrec => h.bound (records_erase.1 hrec).2, h.used⟩
  have hall := backed_allocateAll herased
  unfold exchange
  cases x.routes.get? id with
  | none => exact hall
  | some old =>
    refine ⟨fun {id' hub peer} hrec => ?_, ?_⟩
    · rw [portOf?_releaseRoute_of_kept (.inr ⟨id', hrec⟩)]
      exact hall.bound hrec
    · simp only [releaseRoute_eq]
      exact used_discharge _ (used_discharge _ hall.used _) _

theorem backed_handle {x : RouteIndex} (hx : x.Honest) {w : World} (h : Backed (x, w))
    (c : Request) : Backed ((x.handle w c).index, (x.handle w c).world) := by
  rcases handle_cases hx w c with ⟨-, hindex, hworld⟩ | ⟨id, routes, -, -, he⟩
  · rw [hindex, hworld]
    exact h
  · rw [he]
    exact backed_exchange h id routes

/-! ## Histories -/

/-- An index and a world with a history: it began without routes, and ever since there were
requests, the ports of all routes were bound, or the world drifted. -/
inductive Lived : RouteIndex → World → Prop where
  | start {w : World} (h : w.Used) : Lived .empty w
  | handle {x : RouteIndex} {w : World} (before : Lived x w) (c : Request) :
    Lived (x.handle w c).index (x.handle w c).world
  | allocateAll {x : RouteIndex} {w : World} (before : Lived x w) :
    Lived (x.allocateAll w).1 (x.allocateAll w).2
  | drifts {x : RouteIndex} {w w' : World} (before : Lived x w) (h : w.Drifts w') : Lived x w'

theorem Lived.reached {x : RouteIndex} {w : World} (h : Lived x w) : Reached World.Drifts x w := by
  induction h with
  | start => exact .start _
  | handle _ c ih => exact ih.handle c
  | allocateAll _ ih => exact ih.allocateAll
  | drifts _ hd ih => exact ih.outside hd

theorem Lived.backed {x : RouteIndex} {w : World} (h : Lived x w) : Backed (x, w) := by
  induction h with
  | start h => exact ⟨fun ⟨_, hget, _⟩ => (nomatch hget), h⟩
  | handle before c ih => exact backed_handle before.reached.honest ih c
  | allocateAll _ ih => exact backed_allocateAll ih
  | drifts _ hd ih => exact ih.drifts hd

/-- Whatever happened: a port that a route records is bound on the hub that it is recorded for,
different ports that are recorded for a hub are bound to different ports of it, and giving ports
back frees none that a route records. -/
theorem recorded_bound {x : RouteIndex} {w : World} (h : Lived x w) :
    (∀ id hub peer, x.Records id hub peer → ∃ port, (w.pool hub).portOf? peer = some port) ∧
      (∀ id id' hub peer peer' port, x.Records id hub peer → x.Records id' hub peer' →
        (w.pool hub).portOf? peer = some port → (w.pool hub).portOf? peer' = some port →
        peer = peer') ∧
      ∀ (x' : RouteIndex) (w' : World) hub peers hub' peer,
        (w'.pool hub').portOf? peer ≠ none →
        ((x'.release w' hub peers).pool hub').portOf? peer = none →
        hub' = hub ∧ peer ∈ peers ∧ ¬ ∃ id, x'.Records id hub' peer := by
  have hbacked := h.backed
  refine ⟨fun id hub peer hrec => ?_, fun id id' hub peer peer' port _ _ hp hp' => ?_,
    fun x' w' hub peers hub' peer hp hfree => ?_⟩
  · exact Option.ne_none_iff_exists'.1 (hbacked.bound hrec)
  · exact PortPool.eq_of_portOf? (hbacked.used hub) hp hp'
  · rw [portOf?_release] at hfree
    split at hfree
    next hgone =>
      obtain ⟨hhub, hmem, hrec⟩ := hgone
      exact ⟨hhub, hmem, fun hex => by rw [isRecorded_iff.2 hex] at hrec; cases hrec⟩
    · exact absurd hfree hp

/-- The port of the indexed route is moved to another one that is on record on its hub. -/
def moved : World := indexed.world.loadPorts none "b" [(exported, 40007)]

theorem lived_moved : Lived indexed.index moved :=
  .drifts (.handle (.start fun _ => .unbound rfl) (.apply (edited "s"))) (.load ..)

/-- The route records the port still, and it is bound to the other one. -/
theorem recorded_bound_moved :
    Lived indexed.index moved ∧ indexed.index.Records ⟨"n", "r"⟩ "b" exported ∧
      (∃ port, (moved.pool "b").portOf? exported = some port) ∧
      (moved.pool "b").portOf? exported = some 40007 :=
  ⟨lived_moved, records_exported, (recorded_bound lived_moved).1 _ _ _ records_exported,
    by decide +kernel⟩

end RouteIndex

/-! ## Federations -/

namespace Federation

open RouteIndex

variable {f : Federation}

/-- Only the hubs of a world count. -/
theorem lived_of_fleet {x : RouteIndex} {w w' : World} (h : Lived x w)
    (hfleet : w'.fleet = w.fleet) : Lived x w' :=
  h.drifts (.elsewhere (congrArg Fleet.ports hfleet))

theorem lived_afterChange {c : Change} (h : Lived c.index c.world) :
    Lived (f.afterChange c).index (f.afterChange c).world := by
  unfold afterChange
  simp only
  split <;> exact h

theorem lived_reconcile (h : Lived f.index f.world) :
    Lived f.reconcile.index f.reconcile.world := by
  obtain ⟨hindex, hfleet⟩ := f.reconcile_eq
  rw [hindex]
  exact lived_of_fleet h.allocateAll hfleet

theorem drifts_pollTask (f : Federation) (id : Nat) : f.world.Drifts (f.pollTask id).world := by
  unfold pollTask
  split
  · exact .elsewhere rfl
  next t _ =>
    obtain ⟨w, hsteps, hports⟩ := (t.polled f.isDone f.world).steps
    exact hsteps.drifts.trans (.elsewhere hports)

theorem lived_step (h : Lived f.index f.world) (m : Move) :
    Lived (f.step m).index (f.step m).world := by
  cases m with
  | apply route =>
    have hboard : Lived f.index { f.world with board := f.world.board.apply route } :=
      lived_of_fleet h rfl
    exact lived_afterChange (hboard.handle (.apply route))
  | delete id =>
    have hboard : Lived f.index { f.world with board := f.world.board.delete id } :=
      lived_of_fleet h rfl
    exact lived_afterChange (hboard.handle (.delete id))
  | outside hubs board clock => exact h.drifts (.elsewhere rfl)
  | serviceChanged hub =>
    have hsame := f.sameRoutes_serviceChanged hub
    rw [step, hsame.index]
    exact lived_of_fleet h hsame.fleet
  | requestRegrouping => exact h
  | regroup =>
    simp only [step, pollRegrouping]
    split
    · exact lived_reconcile h
    · exact h
  | reconcile => exact lived_reconcile h
  | work id =>
    rw [step, index_pollTask]
    exact h.drifts (f.drifts_pollTask id)
  | elapse ms => exact h

/-- What a federation does is a history of its routes and its hubs. -/
theorem lived_run (h : Lived f.index f.world) (ms : List Move) :
    Lived (f.run ms).index (f.run ms).world := by
  induction ms generalizing f with
  | nil => exact h
  | cons m ms ih => exact ih (lived_step h m)

end Federation

end HubFederation
