import HubFederation.Federation.Basic
import HubFederation.Proofs.Mapping.Reading

/-!
# Runs of a federation

A run is a list of moves, in whatever order they come: requests for routes, changes of the
hubs, regroupings, what the task of a pair does, and time that passes. What a federation
does by itself while time passes is a run, so what holds of every run holds of it.

* `advance_moves`: letting time pass is a run.
* `reconcile_eq`: what regrouping does to the routes, the hubs and the open tasks.
-/
namespace HubFederation

namespace Federation

inductive Move where
  | apply (route : Route)
  | delete (id : RouteId)
  /-- The hubs, the statuses and the clock change, and bind ports do not. -/
  | outside (hubs : Fleet) (board : StatusBoard) (clock : Timestamp)
  | serviceChanged (hub : String)
  | requestRegrouping
  /-- Regroups if the time for that has come. -/
  | regroup
  /-- Regroups, be it time or not. -/
  | reconcile
  | work (id : Nat)
  | elapse (ms : Nat)

def step (f : Federation) : Move → Federation
  | .apply route => f.applyRoute route
  | .delete id => f.deleteRoute id
  | .outside hubs board clock =>
    { f with
      world := { f.world with fleet := { hubs with ports := f.world.fleet.ports }, board, clock } }
  | .serviceChanged hub => f.serviceChanged hub
  | .requestRegrouping => f.requestRegrouping
  | .regroup => f.pollRegrouping
  | .reconcile => f.reconcile
  | .work id => f.pollTask id
  | .elapse ms => f.elapse ms

def run (f : Federation) (ms : List Move) : Federation := ms.foldl step f

@[simp] theorem run_nil (f : Federation) : f.run [] = f := rfl

@[simp] theorem run_cons (f : Federation) (m : Move) (ms : List Move) :
    f.run (m :: ms) = (f.step m).run ms := rfl

theorem run_append (f : Federation) (ms ms' : List Move) :
    f.run (ms ++ ms') = (f.run ms).run ms' :=
  List.foldl_append

theorem run_concat (f : Federation) (ms : List Move) (m : Move) :
    f.run (ms ++ [m]) = (f.run ms).step m :=
  f.run_append ms [m]

/-! ## Time that passes -/

theorem poll_moves (f : Federation) : ∃ ms, f.poll = f.run ms := by
  refine ⟨.regroup :: (List.range f.pollRegrouping.tasks.length).map .work, ?_⟩
  rw [run_cons]
  unfold run
  rw [List.foldl_map]
  rfl

/-- What a federation does while time passes is a run. -/
theorem advance_moves (f : Federation) (ms : Nat) : ∃ moves, f.advance ms = f.run moves := by
  fun_induction advance f ms with
  | case1 f => exact ⟨[], rfl⟩
  | case2 f ms _ wait _ wait' _ ih =>
    obtain ⟨polled, hpolled⟩ := (f.elapse wait').poll_moves
    obtain ⟨moves, hmoves⟩ := ih
    refine ⟨.elapse wait' :: (polled ++ moves), ?_⟩
    rw [hmoves, hpolled, run_cons, run_append]
    rfl
  | case3 f ms => exact ⟨[.elapse ms], rfl⟩
  | case4 f ms => exact ⟨[.elapse ms], rfl⟩

theorem index_pollTask (f : Federation) (id : Nat) : (f.pollTask id).index = f.index := by
  unfold pollTask
  split <;> rfl

/-! ## Regrouping -/

/-- `g` has the routes of `f`, and sees the same hubs. -/
structure SameRoutes (f g : Federation) : Prop where
  index : g.index = f.index
  fleet : g.world.fleet = f.world.fleet

theorem SameRoutes.refl (f : Federation) : SameRoutes f f := ⟨rfl, rfl⟩

theorem SameRoutes.trans {f g h : Federation} (hfg : SameRoutes f g) (hgh : SameRoutes g h) :
    SameRoutes f h :=
  ⟨hgh.index.trans hfg.index, hgh.fleet.trans hfg.fleet⟩

theorem sameRoutes_serve (f : Federation) (e : (String × String) × List Route) :
    SameRoutes f (f.serve e) := by
  unfold serve openTask
  cases f.mappings.get? e.1 <;> exact ⟨rfl, rfl⟩

theorem sameRoutes_serves (f : Federation) (es : List ((String × String) × List Route)) :
    SameRoutes f (es.foldl serve f) := by
  induction es generalizing f with
  | nil => exact .refl f
  | cons e es ih => exact (f.sameRoutes_serve e).trans (ih _)

theorem sameRoutes_closeStale (f : Federation) (es : List ((String × String) × Nat)) :
    SameRoutes f (es.foldl closeStale f) := by
  induction es generalizing f with
  | nil => exact .refl f
  | cons e es ih => exact (⟨rfl, rfl⟩ : SameRoutes f (f.closeStale e)).trans (ih _)

theorem sameRoutes_serviceChanged (f : Federation) (hub : String) :
    SameRoutes f (f.serviceChanged hub) := by
  have h (es : List ((String × String) × Nat)) (f : Federation) :
      SameRoutes f (es.foldl (fun f e => if e.1.1 = hub then f.request e.2 else f) f) := by
    induction es generalizing f with
    | nil => exact .refl f
    | cons e es ih =>
      rw [List.foldl_cons]
      refine SameRoutes.trans ?_ (ih _)
      split <;> exact ⟨rfl, rfl⟩
  exact h _ f

theorem mappings_closeStale (f : Federation) (es : List ((String × String) × Nat)) :
    (es.foldl closeStale f).mappings = es.foldl (fun m e => m.erase e.1) f.mappings := by
  induction es generalizing f with
  | nil => rfl
  | cons e es ih => exact ih (f.closeStale e)

/-- Regrouping binds the ports of all routes; what it does to tasks concerns neither routes
nor hubs. -/
theorem reconcile_eq (f : Federation) :
    f.reconcile.index = (f.index.allocateAll f.world).1 ∧
      f.reconcile.world.fleet = (f.index.allocateAll f.world).2.fleet := by
  have hstale (f' : Federation) (stale : List ((String × String) × Nat))
      (groups : List ((String × String) × List Route)) :
      SameRoutes f' (groups.foldl serve (stale.foldl closeStale f')) :=
    (sameRoutes_closeStale f' stale).trans (sameRoutes_serves _ groups)
  exact ⟨(hstale _ _ _).index, (hstale _ _ _).fleet⟩

/-- Nothing is left of a map once all its keys are erased. -/
theorem foldl_erase_eq_empty {es : List ((String × String) × Nat)}
    {m : SortedMap (String × String) Nat} (hm : ∀ e ∈ m.entries, e ∈ es) :
    es.foldl (fun m e => m.erase e.1) m = ∅ := by
  induction es generalizing m with
  | nil =>
    refine SortedMap.ext_get? fun k => Option.eq_none_iff_forall_ne_some.2 fun id hid => ?_
    exact absurd (hm _ (SortedMap.mem_entries_iff.2 hid)) List.not_mem_nil
  | cons e es ih =>
    refine ih fun e' he' => ?_
    obtain ⟨hne, hget⟩ := SortedMap.get?_erase_eq_some.1 (SortedMap.mem_entries_iff.1 he')
    rcases List.mem_cons.1 (hm e' (SortedMap.mem_entries_iff.2 hget)) with rfl | hmem
    · exact absurd rfl hne
    · exact hmem

/-- Regrouping no routes leaves no task open. -/
theorem mappings_reconcile_of_no_routes {f : Federation} (h : f.index.routes = ∅) :
    f.reconcile.mappings = ∅ := by
  have hroutes : (f.index.allocateAll f.world).1 = f.index := by
    unfold RouteIndex.allocateAll
    rw [h]
    rfl
  have hgroups : (f.index.allocateAll f.world).1.groups = ∅ := by
    rw [hroutes]
    unfold RouteIndex.groups
    rw [h]
    rfl
  unfold reconcile
  simp only [hgroups]
  change (List.foldl closeStale _ _).mappings = ∅
  rw [mappings_closeStale]
  refine foldl_erase_eq_empty fun e he => List.mem_filter.2 ⟨he, ?_⟩
  rfl

end Federation

end HubFederation
