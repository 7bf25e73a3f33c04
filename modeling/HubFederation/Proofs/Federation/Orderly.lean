import HubFederation.Proofs.Federation.Lineage

/-!
# Federations in order

Most of what happens to a federation only asks tasks for something. Regrouping also closes tasks
and starts new ones, and a task that is polled does what it has to do.

* `Nudges`: everything that can happen to tasks but time and work.
* `Orderly`: the tasks of every pair hang together, those that are told of services are the open
  ones, and each debounces as its stage demands.
* `orderly_step`, `orderly_run`: a federation is orderly in every run.
-/
namespace HubFederation.Federation

variable {f g h : Federation}

/-- What counts of a task for its lineage. -/
def face? (f : Federation) (id : Nat) : Option Face := f.tasks[id]?.map Task.face

theorem face?_eq_some {id : Nat} {a : Face} :
    f.face? id = some a ↔ ∃ t, f.tasks[id]? = some t ∧ t.face = a :=
  Option.map_eq_some_iff

theorem lt_length_of_face? {id : Nat} {a : Face} (ha : f.face? id = some a) :
    id < f.tasks.length := by
  obtain ⟨t, ht, -⟩ := face?_eq_some.1 ha
  exact (List.getElem?_eq_some_iff.1 ht).1

theorem isDone_of_getElem? {id : Nat} {t : Task} (ht : f.tasks[id]? = some t) :
    f.isDone id = t.isDone := by
  unfold isDone
  rw [ht]
  rfl

/-! ## Tasks that are asked -/

/-- Tasks are asked for something or closed, and there may be new ones. -/
structure Nudges (f g : Federation) : Prop where
  interval : g.interval = f.interval
  kept : ∀ (id : Nat) (t : Task), f.tasks[id]? = some t →
    ∃ t', g.tasks[id]? = some t' ∧ t.Nudged t'
  new : ∀ (id : Nat) (t : Task), f.tasks[id]? = none → g.tasks[id]? = some t →
    t.Tuned f.interval ∧ t.isDone = false

/-- Tasks are asked for something, and that is all. -/
structure Quiet (f g : Federation) : Prop extends Nudges f g where
  faces : g.face? = f.face?
  mappings : g.mappings = f.mappings
  closing : g.closing = f.closing
  callbacks : g.callbacks = f.callbacks

theorem nudges_of_tasks (htasks : g.tasks = f.tasks) (hinterval : g.interval = f.interval) :
    Nudges f g := by
  refine ⟨hinterval, fun id t ht => ⟨t, by rw [htasks, ht], .refl t⟩, fun id t' hnone hsome => ?_⟩
  rw [htasks, hnone] at hsome
  cases hsome

theorem Nudges.trans (hfg : Nudges f g) (hgh : Nudges g h) : Nudges f h := by
  refine ⟨hgh.interval.trans hfg.interval, fun id t ht => ?_, fun id t'' hnone hsome => ?_⟩
  · obtain ⟨t', ht', hn⟩ := hfg.kept id t ht
    obtain ⟨t'', ht'', hn'⟩ := hgh.kept id t' ht'
    exact ⟨t'', ht'', hn.trans hn'⟩
  · cases hg : g.tasks[id]? with
    | none => exact hfg.interval ▸ hgh.new id t'' hg hsome
    | some t' =>
      obtain ⟨t, ht, hn⟩ := hgh.kept id t' hg
      rw [hsome] at ht
      cases ht
      obtain ⟨htuned, hdone⟩ := hfg.new id t' hnone hg
      exact ⟨htuned.nudged hn, hn.isDone.trans hdone⟩

theorem quiet_of_tasks (htasks : g.tasks = f.tasks) (hinterval : g.interval = f.interval)
    (hmappings : g.mappings = f.mappings) (hclosing : g.closing = f.closing)
    (hcallbacks : g.callbacks = f.callbacks) : Quiet f g :=
  ⟨nudges_of_tasks htasks hinterval, by unfold face?; rw [htasks], hmappings, hclosing,
    hcallbacks⟩

theorem Quiet.trans (hfg : Quiet f g) (hgh : Quiet g h) : Quiet f h :=
  ⟨hfg.toNudges.trans hgh.toNudges, hgh.faces.trans hfg.faces, hgh.mappings.trans hfg.mappings,
    hgh.closing.trans hfg.closing, hgh.callbacks.trans hfg.callbacks⟩

theorem getElem?_modifyTask (f : Federation) (id : Nat) (change : Task → Task) (i : Nat) :
    (f.modifyTask id change).tasks[i]? =
      f.tasks[i]?.map fun t => if id = i then change t else t :=
  List.getElem?_modify ..

theorem nudges_modifyTask {change : Task → Task} (hchange : ∀ t : Task, t.Nudged (change t))
    (f : Federation) (id : Nat) : Nudges f (f.modifyTask id change) := by
  refine ⟨rfl, fun i t ht => ?_, fun i t' hnone hsome => ?_⟩
  · rw [getElem?_modifyTask, ht]
    refine ⟨_, rfl, ?_⟩
    split
    · exact hchange t
    · exact .refl t
  · rw [getElem?_modifyTask, hnone] at hsome
    cases hsome

theorem quiet_modifyTask {change : Task → Task} (hchange : ∀ t : Task, t.Nudged (change t))
    (hface : ∀ t : Task, (change t).face = t.face) (f : Federation) (id : Nat) :
    Quiet f (f.modifyTask id change) := by
  refine ⟨nudges_modifyTask hchange f id, funext fun i => ?_, rfl, rfl, rfl⟩
  unfold face?
  rw [getElem?_modifyTask, Option.map_map]
  congr 1
  funext t
  simp only [Function.comp_apply]
  split
  · exact hface t
  · rfl

theorem quiet_request (f : Federation) (id : Nat) : Quiet f (f.request id) :=
  quiet_modifyTask Task.nudged_request (fun _ => rfl) f id

theorem quiet_setRoutes (f : Federation) (id : Nat) (routes : List Route) :
    Quiet f (f.setRoutes id routes) :=
  quiet_modifyTask (Task.nudged_setRoutes · routes) (fun _ => rfl) f id

theorem quiet_serviceChanged (f : Federation) (hub : String) : Quiet f (f.serviceChanged hub) := by
  have hfold (es : List ((String × String) × Nat)) (f : Federation) :
      Quiet f (es.foldl (fun f e => if e.1.1 = hub then f.request e.2 else f) f) := by
    induction es generalizing f with
    | nil => exact quiet_of_tasks rfl rfl rfl rfl rfl
    | cons e es ih =>
      rw [List.foldl_cons]
      refine Quiet.trans ?_ (ih _)
      split
      · exact f.quiet_request e.2
      · exact quiet_of_tasks rfl rfl rfl rfl rfl
  exact hfold _ f

theorem quiet_afterChange (f : Federation) (c : RouteIndex.Change) : Quiet f (f.afterChange c) := by
  unfold afterChange
  simp only
  split <;> exact quiet_of_tasks rfl rfl rfl rfl rfl

/-! ## Regrouping -/

theorem nudges_closeStale (f : Federation) (e : (String × String) × Nat) :
    Nudges f (f.closeStale e) :=
  (nudges_modifyTask Task.nudged_close f e.2).trans (nudges_of_tasks rfl rfl)

theorem getElem?_concat_of_some {l : List Task} {i : Nat} {t new : Task} (h : l[i]? = some t) :
    (l ++ [new])[i]? = some t := by
  rw [List.getElem?_append_left (List.getElem?_eq_some_iff.1 h).1, h]

theorem nudges_openTask (f : Federation) (pair : String × String) :
    Nudges f (f.openTask pair).1 := by
  unfold openTask
  split
  · exact nudges_of_tasks rfl rfl
  · refine ⟨rfl, fun id t ht => ⟨t, getElem?_concat_of_some ht, .refl t⟩, fun id t' hnone hsome => ?_⟩
    have hnew : t' = Task.ofMapping (.ofPair pair.1 pair.2 f.identityFile) f.interval
        (f.closing.get? pair) := by
      have hat : ([Task.ofMapping (.ofPair pair.1 pair.2 f.identityFile) f.interval
          (f.closing.get? pair)])[id - f.tasks.length]? = some t' := by
        rw [← hsome]
        exact (List.getElem?_append_right (List.getElem?_eq_none_iff.1 hnone)).symm
      exact List.mem_singleton.1 (List.mem_of_getElem? hat)
    rw [hnew]
    exact ⟨Task.tuned_ofMapping .., rfl⟩

theorem nudges_serve (f : Federation) (e : (String × String) × List Route) :
    Nudges f (f.serve e) :=
  (f.nudges_openTask e.1).trans
    (((f.openTask e.1).1.quiet_setRoutes (f.openTask e.1).2 e.2).trans
      (quiet_request _ (f.openTask e.1).2)).toNudges

theorem nudges_foldl {α : Type} {step : Federation → α → Federation}
    (hstep : ∀ f a, Nudges f (step f a)) (as : List α) (f : Federation) :
    Nudges f (as.foldl step f) := by
  induction as generalizing f with
  | nil => exact nudges_of_tasks rfl rfl
  | cons a as ih => exact (hstep f a).trans (ih _)

/-- What regrouping starts from: all ports are bound, and what is done is forgotten. -/
def pruned (f : Federation) : Federation :=
  { f with
    index := (f.index.allocateAll f.world).1
    world := (f.index.allocateAll f.world).2
    closing := f.closing.filter fun _ id => !f.isDone id }

/-- The open tasks of pairs that have no routes. -/
def stale (f : Federation) : List ((String × String) × Nat) :=
  f.mappings.entries.filter fun e => !f.index.groups.contains e.1

theorem reconcile_phases (f : Federation) : f.reconcile =
    f.pruned.index.groups.entries.foldl serve (f.pruned.stale.foldl closeStale f.pruned) := rfl

theorem nudges_reconcile (f : Federation) : Nudges f f.reconcile := by
  have hpruned : Nudges f f.pruned := nudges_of_tasks rfl rfl
  rw [reconcile_phases]
  exact hpruned.trans
    ((nudges_foldl nudges_closeStale _ f.pruned).trans (nudges_foldl nudges_serve _ _))

/-- Regrouping when the time for that has come, or nothing. -/
theorem pollRegrouping_cases (f : Federation) : ∃ regrouping, f.pollRegrouping =
    if f.regrouping.receive.isDue then reconcile { f with regrouping }
    else { f with regrouping } := by
  unfold pollRegrouping
  simp only
  split
  · exact ⟨_, rfl⟩
  · exact ⟨_, rfl⟩

theorem nudges_pollRegrouping (f : Federation) : Nudges f f.pollRegrouping := by
  obtain ⟨regrouping, h⟩ := f.pollRegrouping_cases
  have hasked : Nudges f { f with regrouping } := nudges_of_tasks rfl rfl
  rw [h]
  split
  · exact hasked.trans (nudges_reconcile _)
  · exact hasked

/-- Every move but time that passes and a task that is polled only nudges. -/
theorem nudges_step (f : Federation) {m : Move} (helapse : ∀ ms, m ≠ .elapse ms)
    (hwork : ∀ id, m ≠ .work id) : Nudges f (f.step m) := by
  cases m with
  | apply route => exact (quiet_afterChange f _).toNudges
  | delete id => exact (quiet_afterChange f _).toNudges
  | outside hubs board clock => exact nudges_of_tasks rfl rfl
  | serviceChanged hub => exact (f.quiet_serviceChanged hub).toNudges
  | requestRegrouping => exact nudges_of_tasks rfl rfl
  | regroup => exact f.nudges_pollRegrouping
  | reconcile => exact f.nudges_reconcile
  | work id => exact absurd rfl (hwork id)
  | elapse ms => exact absurd rfl (helapse ms)

/-! ## Order -/

structure Orderly (f : Federation) : Prop where
  lineage : Lineage f.face? f.mappings f.closing
  callbacks : f.callbacks = f.mappings
  tuned : ∀ (id : Nat) (t : Task), f.tasks[id]? = some t → t.Tuned f.interval

theorem orderly_ofWorld (w : World) (identityFile : String) (interval : Nat) :
    (ofWorld w identityFile interval).Orderly :=
  ⟨lineage_empty, rfl, fun _ _ h => absurd h (by simp [ofWorld])⟩

theorem Nudges.tuned (hn : Nudges f g) (ht : ∀ (id : Nat) (t : Task), f.tasks[id]? = some t → t.Tuned f.interval) :
    ∀ (id : Nat) (t : Task), g.tasks[id]? = some t → t.Tuned g.interval := by
  intro id t' hsome
  rw [hn.interval]
  cases hf : f.tasks[id]? with
  | none => exact (hn.new id t' hf hsome).1
  | some t =>
    obtain ⟨t'', ht'', hnudged⟩ := hn.kept id t hf
    rw [hsome] at ht''
    cases ht''
    exact (ht id t hf).nudged hnudged

theorem Orderly.quiet (ho : f.Orderly) (hq : Quiet f g) : g.Orderly := by
  refine ⟨?_, ?_, hq.toNudges.tuned ho.tuned⟩
  · rw [hq.faces, hq.mappings, hq.closing]
    exact ho.lineage
  · rw [hq.callbacks, hq.mappings]
    exact ho.callbacks

theorem orderly_elapse (ho : f.Orderly) (ms : Nat) : (f.elapse ms).Orderly := by
  have hget (id : Nat) : (f.elapse ms).tasks[id]? = f.tasks[id]?.map (·.elapse ms) :=
    List.getElem?_map ..
  refine ⟨?_, ho.callbacks, fun id t' hsome => ?_⟩
  · have hface : (f.elapse ms).face? = f.face? := by
      funext id
      unfold face?
      rw [hget, Option.map_map]
      congr 1
      funext t
      simp only [Function.comp_apply, Task.elapse]
      split <;> rfl
    rw [hface]
    exact ho.lineage
  · rw [hget] at hsome
    obtain ⟨t, ht, rfl⟩ := Option.map_eq_some_iff.1 hsome
    exact (ho.tuned id t ht).elapse ms

theorem getElem?_pollTask {id : Nat} {t : Task} (ht : f.tasks[id]? = some t) (i : Nat) :
    (f.pollTask id).tasks[i]? =
      if i = id then some (t.poll f.isDone f.world).1 else f.tasks[i]? := by
  unfold pollTask
  rw [ht]
  simp only
  rw [List.getElem?_set]
  by_cases hi : i = id
  · rw [if_pos hi.symm, if_pos hi, if_pos (List.getElem?_eq_some_iff.1 ht).1]
  · rw [if_neg (Ne.symm hi), if_neg hi]

theorem pollTask_of_none {id : Nat} (h : f.tasks[id]? = none) : f.pollTask id = f := by
  unfold pollTask
  rw [h]

theorem orderly_pollTask (ho : f.Orderly) (id : Nat) : (f.pollTask id).Orderly := by
  cases ht : f.tasks[id]? with
  | none =>
    rw [pollTask_of_none ht]
    exact ho
  | some t =>
    have hget := getElem?_pollTask ht
    have hsame : (f.pollTask id).mappings = f.mappings ∧ (f.pollTask id).closing = f.closing ∧
        (f.pollTask id).callbacks = f.callbacks ∧ (f.pollTask id).interval = f.interval := by
      unfold pollTask
      rw [ht]
      exact ⟨rfl, rfl, rfl, rfl⟩
    obtain ⟨hmappings, hclosing, hcallbacks, hinterval⟩ := hsame
    refine ⟨?_, by rw [hcallbacks, hmappings, ho.callbacks], fun i t' hsome => ?_⟩
    · have hface : (f.pollTask id).face? =
          Function.update f.face? id (some (t.poll f.isDone f.world).1.face) := by
        funext i
        unfold face?
        rw [hget, Function.update_apply]
        split <;> rfl
      have hpolled := t.polled f.isDone f.world
      rw [hface, hmappings, hclosing]
      refine ho.lineage.poll (face?_eq_some.2 ⟨t, ht, rfl⟩) ⟨hpolled.pair, hpolled.closed,
        fun hdone => ?_, fun p hstage => ?_, fun p b hstage hb hdone => ?_⟩
      · have h := hpolled.isDone
        rw [Task.isDone_iff.2 hdone, Bool.true_or] at h
        exact Task.isDone_iff.1 h
      · rw [hpolled.starting p hstage]
      · have hp : f.isDone p = false := by
          obtain ⟨tp, htp, rfl⟩ := face?_eq_some.1 hb
          rw [isDone_of_getElem? htp]
          exact Task.isDone_eq_false hdone
        rw [(Task.poll_of_blocked hstage hp f.world).2]
    · rw [hget] at hsome
      rw [hinterval]
      split at hsome
      · cases hsome
        exact (ho.tuned id t ht).poll f.isDone f.world
      · exact ho.tuned i t' hsome

/-! ## Regrouping keeps order -/

theorem orderly_closeStale (ho : f.Orderly) {e : (String × String) × Nat}
    (he : f.mappings.get? e.1 = some e.2) : (f.closeStale e).Orderly := by
  obtain ⟨a, ha, -, -⟩ := ho.lineage.opened he
  refine ⟨?_, ?_, (f.nudges_closeStale e).tuned ho.tuned⟩
  · have hface : (f.closeStale e).face? =
        Function.update f.face? e.2 (some { a with closed := true }) := by
      funext i
      have hget : (f.closeStale e).tasks[i]? =
          f.tasks[i]?.map fun t => if e.2 = i then t.close else t := List.getElem?_modify ..
      unfold face? at ha ⊢
      rw [hget, Function.update_apply]
      by_cases hi : i = e.2
      · subst hi
        obtain ⟨t, ht, rfl⟩ := Option.map_eq_some_iff.1 ha
        rw [ht, if_pos rfl, Option.map_some, Option.map_some, if_pos rfl]
        rfl
      · simp only [if_neg hi, if_neg (Ne.symm hi), Option.map_id']
    rw [hface]
    exact ho.lineage.close he ha
  · exact congrArg (SortedMap.erase · e.1) ho.callbacks

/-- Different pairs are closed one after the other. -/
theorem orderly_closeStales {es : List ((String × String) × Nat)}
    (hes : es.Pairwise fun e e' => e.1 ≠ e'.1) (ho : f.Orderly)
    (hopen : ∀ e ∈ es, f.mappings.get? e.1 = some e.2) : (es.foldl closeStale f).Orderly := by
  induction es generalizing f with
  | nil => exact ho
  | cons e es ih =>
    rw [List.pairwise_cons] at hes
    refine ih hes.2 (orderly_closeStale ho (hopen e (List.mem_cons_self ..))) fun e' he' => ?_
    rw [← hopen e' (List.mem_cons_of_mem _ he')]
    exact SortedMap.get?_erase_of_ne _ (Ne.symm (hes.1 e' he'))

theorem face?_spawn (f : Federation) (pair : String × String) (previous : Option Nat) :
    (f.spawn pair previous).1.face? =
      Function.update f.face? f.tasks.length (some (.fresh pair previous)) := by
  funext i
  unfold face? spawn
  rw [Function.update_apply]
  simp only
  by_cases hi : i = f.tasks.length
  · rw [if_pos hi, hi, List.getElem?_concat_length]
    rfl
  · rw [if_neg hi]
    rcases Nat.lt_or_gt_of_ne hi with hlt | hgt
    · rw [List.getElem?_append_left hlt]
    · rw [List.getElem?_eq_none (by rw [List.length_append]; exact hgt),
        List.getElem?_eq_none (Nat.le_of_lt hgt)]

theorem orderly_openTask (ho : f.Orderly) (pair : String × String) :
    (f.openTask pair).1.Orderly := by
  refine ⟨?_, ?_, (f.nudges_openTask pair).tuned ho.tuned⟩
  · unfold openTask
    split
    · exact ho.lineage
    next hnone =>
      have hlineage := ho.lineage.spawn (fun i a ha => lt_length_of_face? ha) hnone
      rwa [← face?_spawn f pair (f.closing.get? pair)] at hlineage
  · unfold openTask
    split
    · exact ho.callbacks
    · exact congrArg (SortedMap.insert · pair f.tasks.length) ho.callbacks

theorem orderly_serve (ho : f.Orderly) (e : (String × String) × List Route) :
    (f.serve e).Orderly :=
  (orderly_openTask ho e.1).quiet
    (((f.openTask e.1).1.quiet_setRoutes (f.openTask e.1).2 e.2).trans
      (quiet_request _ (f.openTask e.1).2))

theorem orderly_serves (es : List ((String × String) × List Route)) (ho : f.Orderly) :
    (es.foldl serve f).Orderly := by
  induction es generalizing f with
  | nil => exact ho
  | cons e es ih => exact ih (orderly_serve ho e)

/-- The tasks that are done need not be remembered. -/
theorem orderly_pruned (ho : f.Orderly) : f.pruned.Orderly := by
  have hkeep (pair : String × String) (c : Nat) (a : Face) (ha : f.face? c = some a)
      (hdone : a.stage ≠ .done) : (!f.isDone c) = true := by
    obtain ⟨t, ht, rfl⟩ := face?_eq_some.1 ha
    rw [isDone_of_getElem? ht, Task.isDone_eq_false hdone]
    rfl
  exact ⟨ho.lineage.prune hkeep, ho.callbacks, ho.tuned⟩

/-- Each stale task is the open one of a pair of its own. -/
theorem stale_apart (f : Federation) :
    f.stale.Pairwise (fun e e' => e.1 ≠ e'.1) ∧ ∀ e ∈ f.stale, f.mappings.get? e.1 = some e.2 := by
  refine ⟨(f.mappings.sorted.sublist List.filter_sublist).imp fun hlt heq => ?_, fun e he => ?_⟩
  · rw [heq] at hlt
    exact Key.lt_irrefl _ hlt
  · exact SortedMap.mem_entries_iff.1 (List.mem_filter.1 he).1

theorem orderly_reconcile (ho : f.Orderly) : f.reconcile.Orderly := by
  obtain ⟨hpairs, hopen⟩ := f.pruned.stale_apart
  rw [reconcile_phases]
  exact orderly_serves _ (orderly_closeStales hpairs (orderly_pruned ho) hopen)

theorem orderly_pollRegrouping (ho : f.Orderly) : f.pollRegrouping.Orderly := by
  obtain ⟨regrouping, h⟩ := f.pollRegrouping_cases
  have hasked : Orderly { f with regrouping } := ho.quiet (quiet_of_tasks rfl rfl rfl rfl rfl)
  rw [h]
  split
  · exact orderly_reconcile hasked
  · exact hasked

theorem orderly_step (ho : f.Orderly) (m : Move) : (f.step m).Orderly := by
  cases m with
  | apply route =>
    exact ho.quiet (.trans (quiet_of_tasks rfl rfl rfl rfl rfl) (quiet_afterChange f _))
  | delete id =>
    exact ho.quiet (.trans (quiet_of_tasks rfl rfl rfl rfl rfl) (quiet_afterChange f _))
  | outside hubs board clock => exact ho.quiet (quiet_of_tasks rfl rfl rfl rfl rfl)
  | serviceChanged hub => exact ho.quiet (f.quiet_serviceChanged hub)
  | requestRegrouping => exact ho.quiet (quiet_of_tasks rfl rfl rfl rfl rfl)
  | regroup => exact orderly_pollRegrouping ho
  | reconcile => exact orderly_reconcile ho
  | work id => exact orderly_pollTask ho id
  | elapse ms => exact orderly_elapse ho ms

theorem orderly_run (ho : f.Orderly) (ms : List Move) : (f.run ms).Orderly := by
  induction ms generalizing f with
  | nil => exact ho
  | cons m ms ih => exact ih (orderly_step ho m)

end HubFederation.Federation
