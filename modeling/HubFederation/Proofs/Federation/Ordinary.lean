import HubFederation.Proofs.Federation.Grouped
import HubFederation.Proofs.Federation.Leaks

/-!
# Ordinary runs

Whether a move can lose a bind port can be told before it is made. From a regrouping until the
next request for a route, tasks have no routes but those that are indexed. If they work only then,
and find nothing on record but what is claimed, and if no service loses a port that is bound before
the index has recorded it, then no port leaks.

* `Grouped.upToDate`, `upToDate_step`: when tasks have no routes but those that are indexed.
* `leakproof_of_ordinary`: no port of a run leaks if every move of it is ordinary.
-/
namespace HubFederation

/-- `t'` is open if `t` is, and has its pair and its routes. -/
structure Task.Serves (t t' : Task) : Prop where
  closed : t'.closed = t.closed
  pair : t'.mapping.pair = t.mapping.pair
  routes : t'.mapping.routes = t.mapping.routes

theorem Task.Polled.serves {t : Task} {w : World} {job : Option Job} {r : Task × World}
    (h : t.Polled w job r) : t.Serves r.1 :=
  ⟨h.closed, h.pair, by rw [h.mapping]⟩

namespace Federation

variable {f g : Federation}

/-! ## Tasks and the routes of their pairs -/

/-- Open tasks have no routes but indexed ones of their pair. -/
def UpToDate (f : Federation) : Prop :=
  ∀ (id : Nat) (t : Task), f.tasks[id]? = some t → t.closed = false → ∀ r ∈ t.mapping.routes,
    (∃ rid, f.index.routes.get? rid = some r) ∧ r.spec.pair = t.mapping.pair

/-- So it is where tasks are grouped. -/
theorem Grouped.upToDate (h : f.Grouped) : f.UpToDate := by
  intro id t ht hopen r hr
  obtain ⟨t', ht', -, -, hroutes⟩ := h.served _ id (h.only id t ht hopen)
  cases ht.symm.trans ht'
  rw [hroutes] at hr
  obtain ⟨hmem, hpair⟩ := List.mem_filter.1 hr
  obtain ⟨⟨rid, r⟩, he, rfl⟩ := List.mem_map.1 hmem
  exact ⟨⟨rid, SortedMap.mem_entries_iff.1 he⟩, of_decide_eq_true hpair⟩

/-- Nothing was indexed anew, and tasks serve what they served. -/
theorem UpToDate.of_serves (h : f.UpToDate) (hindex : g.index = f.index)
    (hserves : ∀ (id : Nat) (t' : Task), g.tasks[id]? = some t' →
      ∃ t, f.tasks[id]? = some t ∧ t.Serves t') : g.UpToDate := by
  intro id t' ht' hopen r hr
  obtain ⟨t, ht, hs⟩ := hserves id t' ht'
  rw [hs.routes] at hr
  rw [hindex, hs.pair]
  exact h id t ht (hs.closed.symm.trans hopen) r hr

theorem UpToDate.of_tasks (h : f.UpToDate) (hindex : g.index = f.index)
    (htasks : g.tasks = f.tasks) : g.UpToDate :=
  h.of_serves hindex fun _ t ht => ⟨t, htasks ▸ ht, rfl, rfl, rfl⟩

theorem upToDate_request (h : f.UpToDate) (id : Nat) : (f.request id).UpToDate := by
  refine h.of_serves rfl fun i t' ht' => ?_
  have hget := f.getElem?_modifyTask id Task.request i
  obtain ⟨t, ht, rfl⟩ := Option.map_eq_some_iff.1 (hget.symm.trans ht')
  refine ⟨t, ht, ?_⟩
  split <;> exact ⟨rfl, rfl, rfl⟩

theorem upToDate_serviceChanged (h : f.UpToDate) (hub : String) :
    (f.serviceChanged hub).UpToDate := by
  unfold serviceChanged
  refine List.foldlRecOn _ _ h fun g hg ⟨pair, id⟩ _ => ?_
  simp only
  split
  · exact upToDate_request hg id
  · exact hg

theorem upToDate_pollTask (h : f.UpToDate) (id : Nat) : (f.pollTask id).UpToDate := by
  cases ht : f.tasks[id]? with
  | none =>
    rw [pollTask_of_none ht]
    exact h
  | some t =>
    refine h.of_serves (f.index_pollTask id) fun i t' ht' => ?_
    rw [getElem?_pollTask ht] at ht'
    split at ht'
    next hi =>
      cases ht'
      exact ⟨t, hi ▸ ht, (t.polled f.isDone f.world).serves⟩
    · exact ⟨t', ht', rfl, rfl, rfl⟩

theorem upToDate_elapse (h : f.UpToDate) (ms : Nat) : (f.elapse ms).UpToDate := by
  refine h.of_serves rfl fun id t' ht' => ?_
  have hget : (f.elapse ms).tasks[id]? = f.tasks[id]?.map (·.elapse ms) := List.getElem?_map ..
  obtain ⟨t, ht, rfl⟩ := Option.map_eq_some_iff.1 (hget.symm.trans ht')
  refine ⟨t, ht, ?_⟩
  unfold Task.elapse
  split <;> exact ⟨rfl, rfl, rfl⟩

/-- A move that is a request for a route. -/
def Move.isRequest : Move → Bool
  | .apply _ | .delete _ => true
  | _ => false

/-- Only a request for a route leaves tasks behind. -/
theorem upToDate_step (ho : f.Orderly) (h : f.UpToDate) {m : Move} (hm : m.isRequest = false) :
    (f.step m).UpToDate := by
  cases m with
  | apply route => cases hm
  | delete id => cases hm
  | outside hubs board clock => exact h.of_tasks rfl rfl
  | serviceChanged hub => exact upToDate_serviceChanged h hub
  | requestRegrouping => exact h.of_tasks rfl rfl
  | regroup =>
    obtain ⟨regrouping, he⟩ := f.pollRegrouping_cases
    have hasked : Orderly { f with regrouping } := ho.quiet (quiet_of_tasks rfl rfl rfl rfl rfl)
    simp only [step, he]
    split
    · exact (grouped_reconcile hasked).upToDate
    · exact h.of_tasks rfl rfl
  | reconcile => exact (grouped_reconcile ho).upToDate
  | work id => exact upToDate_pollTask h id
  | elapse ms => exact upToDate_elapse h ms

/-- Tasks are up to date from a regrouping until the next request for a route. -/
theorem upToDate_run (ho : f.Orderly) {ms : List Move} (hms : ∀ m ∈ ms, m.isRequest = false) :
    (f.run (.reconcile :: ms)).UpToDate := by
  have hall : (f.reconcile.run ms).Orderly ∧ (f.reconcile.run ms).UpToDate :=
    List.foldlRecOn (motive := fun g : Federation => g.Orderly ∧ g.UpToDate) ms step
      ⟨orderly_reconcile ho, (grouped_reconcile ho).upToDate⟩
      fun _ hg m hm => ⟨orderly_step hg.1 m, upToDate_step hg.1 hg.2 (hms m hm)⟩
  exact hall.2

/-! ## Ordinary moves -/

/-- A move is ordinary unless there is a reason before it why it may lose a bind port: a service
loses a port that is bound and not recorded, or a task works that is not up to date, or on whose
hub something is on record that nobody claims. -/
def Move.Ordinary (f : Federation) : Move → Prop
  | .outside hubs _ _ => ∀ hub peer, (f.world.pool hub).portOf? peer ≠ none →
      f.index.isRecorded hub peer = false → f.world.Offers peer →
      ({ f.world with fleet := hubs } : World).Offers peer
  | .work id => f.UpToDate ∧ ∀ t, f.tasks[id]? = some t → ∀ peer,
      t.mapping.Finds f.world.fleet peer → f.index.Claims f.world t.mapping.importing peer
  | _ => True

theorem Move.Ordinary.careful {m : Move} (h : m.Ordinary f) : m.Careful f := by
  cases m with
  | outside hubs board clock => exact h
  | work id => exact careful_work fun t ht => ⟨h.1 id t ht, h.2 t ht⟩
  | apply _ | delete _ | serviceChanged _ | requestRegrouping | regroup | reconcile | elapse _ =>
    trivial

/-- No port leaks at any time of a run, nor would if routes were deleted then, if every move of the
run is ordinary. -/
theorem leakproof_of_ordinary (w : World) (start count : Port) (identityFile : String)
    (interval : Nat) {ms : List Move}
    (h : ∀ pre m, pre ++ [m] <+: ms →
      m.Ordinary ((unused w start count identityFile interval).run pre)) :
    ∀ pre, pre <+: ms → ((unused w start count identityFile interval).run pre).Leakproof := by
  intro pre hpre
  have htidy := (tidy_run_iff (tidy_unused w start count identityFile interval) ms).2
    (fun pre m hpre => (h pre m hpre).careful) pre hpre
  exact (leakproof_iff_tidy htidy.honest).2 htidy

end Federation

end HubFederation
