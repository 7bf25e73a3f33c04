import HubFederation.Proofs.Federation.Orderly

/-!
# What regrouping arrives at

Regrouping closes the task of every pair that has no routes left, and hands each other pair
its routes, in order. A pair that had no open task is given one.

* `get?_groups`: the routes of a pair.
* `serves_foldl`: every pair that is served has its routes then.
* `grouped_reconcile`: the open tasks are those of the pairs that have routes.
-/
namespace HubFederation

/-! ## Groups of routes -/

namespace RouteIndex

theorem get?_foldl_group (rs : List Route) (gs : SortedMap (String × String) (List Route))
    (pair : String × String) :
    (rs.foldl (fun gs r => gs.alter r.spec.pair fun present => present.getD [] ++ [r])
        gs).get? pair =
      if rs.filter (·.spec.pair = pair) = [] then gs.get? pair
      else some ((gs.get? pair).getD [] ++ rs.filter (·.spec.pair = pair)) := by
  induction rs generalizing gs with
  | nil => rfl
  | cons r rs ih =>
    rw [List.foldl_cons, ih, SortedMap.get?_alter, List.filter_cons]
    by_cases hr : r.spec.pair = pair
    · subst hr
      simp only [if_true, decide_true]
      split
      next hnil => simp [hnil]
      · simp
    · simp only [if_neg (Ne.symm hr), decide_eq_true_eq, if_neg hr]

/-- The routes of a pair, in the order of the index. -/
theorem get?_groups (x : RouteIndex) (pair : String × String) :
    x.groups.get? pair = if x.routes.values.filter (·.spec.pair = pair) = [] then none
      else some (x.routes.values.filter (·.spec.pair = pair)) :=
  get?_foldl_group x.routes.values ∅ pair

theorem contains_groups {x : RouteIndex} {pair : String × String} :
    x.groups.contains pair = true ↔ ∃ r ∈ x.routes.values, r.spec.pair = pair := by
  unfold SortedMap.contains
  rw [get?_groups]
  split
  next hnil =>
    refine iff_of_false Bool.false_ne_true ?_
    rintro ⟨r, hr, hpair⟩
    have hmem : r ∈ x.routes.values.filter (·.spec.pair = pair) :=
      List.mem_filter.2 ⟨hr, decide_eq_true hpair⟩
    rw [hnil] at hmem
    cases hmem
  next hne =>
    obtain ⟨r, hr⟩ := List.exists_mem_of_ne_nil _ hne
    obtain ⟨hmem, hpair⟩ := List.mem_filter.1 hr
    exact iff_of_true rfl ⟨r, hmem, of_decide_eq_true hpair⟩

end RouteIndex

namespace Federation

variable {f : Federation} {pair : String × String} {routes : List Route}

/-! ## Closing -/

theorem get?_closeStales (es : List ((String × String) × Nat)) (f : Federation)
    (pair : String × String) :
    (es.foldl closeStale f).mappings.get? pair =
      if pair ∈ es.map (·.1) then none else f.mappings.get? pair := by
  induction es generalizing f with
  | nil => rfl
  | cons e es ih =>
    rw [List.foldl_cons, ih, List.map_cons]
    have hget : (f.closeStale e).mappings.get? pair =
        if pair = e.1 then none else f.mappings.get? pair := by
      change (f.mappings.erase e.1).get? pair = _
      by_cases hpair : pair = e.1
      · rw [hpair, SortedMap.get?_erase_self, if_pos rfl]
      · rw [SortedMap.get?_erase_of_ne _ hpair, if_neg hpair]
    rw [hget]
    by_cases hpair : pair = e.1
    · simp [hpair]
    · rw [if_neg hpair]
      simp only [List.mem_cons, hpair, false_or]

/-- What is left open once the stale tasks are closed. -/
theorem get?_mappings_closed (f : Federation) (pair : String × String) :
    (f.stale.foldl closeStale f).mappings.get? pair =
      if f.index.groups.contains pair then f.mappings.get? pair else none := by
  have hmem : pair ∈ f.stale.map (·.1) ↔
      (f.mappings.get? pair).isSome = true ∧ f.index.groups.contains pair = false := by
    rw [List.mem_map]
    constructor
    · rintro ⟨e, he, rfl⟩
      obtain ⟨hentry, hgroup⟩ := List.mem_filter.1 he
      rw [SortedMap.mem_entries_iff.1 hentry]
      exact ⟨rfl, by simpa using hgroup⟩
    · rintro ⟨hsome, hgroup⟩
      obtain ⟨id, hid⟩ := Option.isSome_iff_exists.1 hsome
      exact ⟨(pair, id), List.mem_filter.2 ⟨SortedMap.mem_entries_iff.2 hid, by simp [hgroup]⟩,
        rfl⟩
  rw [get?_closeStales]
  cases hgroup : f.index.groups.contains pair with
  | true => rw [if_neg (by simp [hmem, hgroup]), if_pos rfl]
  | false =>
    rw [if_neg Bool.false_ne_true]
    split
    · rfl
    next hnot =>
      have hnone : ¬ (f.mappings.get? pair).isSome = true := fun h => hnot (hmem.2 ⟨h, hgroup⟩)
      simpa using hnone

/-! ## Serving -/

/-- The open task of a pair has these routes. -/
def Serves (f : Federation) (pair : String × String) (routes : List Route) : Prop :=
  ∃ (id : Nat) (t : Task), f.mappings.get? pair = some id ∧ f.tasks[id]? = some t ∧
    t.mapping.routes = routes

theorem get?_openTask (f : Federation) (pair pair' : String × String) :
    (f.openTask pair).1.mappings.get? pair' =
      if pair' = pair then some (f.openTask pair).2 else f.mappings.get? pair' := by
  unfold openTask
  split
  next id hid =>
    split
    next h => rw [h, hid]
    · rfl
  · change (f.mappings.insert pair f.tasks.length).get? pair' = _
    split
    next h =>
      rw [h, SortedMap.get?_insert_self]
      rfl
    next h => exact SortedMap.get?_insert_of_ne _ _ h

theorem getElem?_openTask {id : Nat} {t : Task} (ht : f.tasks[id]? = some t)
    (pair : String × String) : (f.openTask pair).1.tasks[id]? = some t := by
  unfold openTask
  split
  · exact ht
  · exact getElem?_concat_of_some ht

theorem getElem?_serve (f : Federation) (e : (String × String) × List Route) (i : Nat) :
    (f.serve e).tasks[i]? = (f.openTask e.1).1.tasks[i]?.map fun t =>
      if (f.openTask e.1).2 = i then (t.setRoutes e.2).request else t := by
  unfold serve request setRoutes
  simp only
  rw [getElem?_modifyTask, getElem?_modifyTask, Option.map_map]
  congr 1
  funext t
  simp only [Function.comp_apply]
  split <;> rfl

/-- A pair that is served has its routes. -/
theorem serves_serve (ho : f.Orderly) (e : (String × String) × List Route) :
    (f.serve e).Serves e.1 e.2 := by
  have hget : (f.openTask e.1).1.mappings.get? e.1 = some (f.openTask e.1).2 := by
    rw [get?_openTask, if_pos rfl]
  obtain ⟨a, ha, -, -⟩ := (orderly_openTask ho e.1).lineage.opened hget
  obtain ⟨t, ht, -⟩ := face?_eq_some.1 ha
  exact ⟨_, (t.setRoutes e.2).request, hget, by
    rw [getElem?_serve, ht, Option.map_some, if_pos rfl], rfl⟩

/-- It keeps them while other pairs are served. -/
theorem Serves.serve (hs : f.Serves pair routes) (ho : f.Orderly)
    {e : (String × String) × List Route} (hne : pair ≠ e.1) : (f.serve e).Serves pair routes := by
  obtain ⟨id, t, hid, ht, hroutes⟩ := hs
  have hlineage := (orderly_openTask ho e.1).lineage
  have hself : (f.openTask e.1).1.mappings.get? e.1 = some (f.openTask e.1).2 := by
    rw [get?_openTask, if_pos rfl]
  have hother : (f.openTask e.1).1.mappings.get? pair = some id := by
    rw [get?_openTask, if_neg hne, hid]
  have hids : (f.openTask e.1).2 ≠ id := by
    intro heq
    obtain ⟨a, ha, -, hpair⟩ := hlineage.opened hself
    obtain ⟨a', ha', -, hpair'⟩ := hlineage.opened hother
    rw [heq, ha'] at ha
    cases ha
    exact hne (hpair'.symm.trans hpair)
  refine ⟨id, t, hother, ?_, hroutes⟩
  rw [getElem?_serve, getElem?_openTask ht, Option.map_some, if_neg hids]

theorem Serves.foldl {es : List ((String × String) × List Route)} (hs : f.Serves pair routes)
    (ho : f.Orderly) (hne : ∀ e ∈ es, pair ≠ e.1) : (es.foldl Federation.serve f).Serves pair routes := by
  induction es generalizing f with
  | nil => exact hs
  | cons e es ih =>
    exact ih (hs.serve ho (hne e (List.mem_cons_self ..))) (orderly_serve ho e)
      fun e' he' => hne e' (List.mem_cons_of_mem _ he')

/-- Once all pairs are served, each has its routes. -/
theorem serves_foldl {es : List ((String × String) × List Route)}
    (hes : es.Pairwise fun e e' => e.1 ≠ e'.1) (ho : f.Orderly) :
    ∀ e ∈ es, (es.foldl serve f).Serves e.1 e.2 := by
  induction es generalizing f with
  | nil => exact fun _ h => nomatch h
  | cons e es ih =>
    rw [List.pairwise_cons] at hes
    intro e' he'
    rcases List.mem_cons.1 he' with rfl | hmem
    · exact (serves_serve ho e').foldl (orderly_serve ho e') hes.1
    · exact ih hes.2 (orderly_serve ho e) e' hmem

/-- The open tasks are those that were open, and those of the pairs that were served. -/
theorem isSome_mappings_serves (es : List ((String × String) × List Route)) (f : Federation)
    (pair : String × String) :
    ((es.foldl serve f).mappings.get? pair).isSome = true ↔
      pair ∈ es.map (·.1) ∨ (f.mappings.get? pair).isSome = true := by
  induction es generalizing f with
  | nil => simp
  | cons e es ih =>
    have hget : (f.serve e).mappings.get? pair =
        if pair = e.1 then some (f.openTask e.1).2 else f.mappings.get? pair :=
      get?_openTask f e.1 pair
    rw [List.foldl_cons, ih, hget, List.map_cons, List.mem_cons]
    by_cases hpair : pair = e.1
    · simp [hpair]
    · simp [hpair]

/-! ## Regrouping -/

/-- The open tasks are those of the pairs that indexed routes have, one for each pair. Each has
the routes of its pair, in the order of the index, and is told when services change. -/
structure Grouped (f : Federation) : Prop where
  live : ∀ pair, (f.mappings.get? pair).isSome = true ↔
    ∃ r ∈ f.index.routes.values, r.spec.pair = pair
  served : ∀ pair id, f.mappings.get? pair = some id → ∃ t, f.tasks[id]? = some t ∧
    t.closed = false ∧ t.mapping.pair = pair ∧
    t.mapping.routes = f.index.routes.values.filter (·.spec.pair = pair)
  only : ∀ (id : Nat) (t : Task), f.tasks[id]? = some t → t.closed = false →
    f.mappings.get? t.mapping.pair = some id
  callbacks : f.callbacks = f.mappings

theorem grouped_reconcile (ho : f.Orderly) : f.reconcile.Grouped := by
  have hreconciled := orderly_reconcile ho
  have hindex : f.reconcile.index = f.pruned.index := f.reconcile_eq.1
  obtain ⟨hpairs, hopen⟩ := f.pruned.stale_apart
  have hclosed := orderly_closeStales hpairs (orderly_pruned ho) hopen
  have hlive (pair : String × String) : (f.reconcile.mappings.get? pair).isSome = true ↔
      f.pruned.index.groups.contains pair = true := by
    rw [reconcile_phases, isSome_mappings_serves, get?_mappings_closed,
      show pair ∈ f.pruned.index.groups.entries.map (·.1) ↔ _ from SortedMap.mem_keys_iff]
    unfold SortedMap.contains
    cases (f.pruned.index.groups.get? pair).isSome <;> simp
  refine ⟨fun pair => ?_, fun pair id hid => ?_, fun id t ht hopen => ?_, hreconciled.callbacks⟩
  · rw [hlive, RouteIndex.contains_groups, hindex]
  · obtain ⟨a, ha, hclosed', hpair⟩ := hreconciled.lineage.opened hid
    obtain ⟨t, ht, rfl⟩ := face?_eq_some.1 ha
    refine ⟨t, ht, hclosed', hpair, ?_⟩
    have hgroup := (hlive pair).1 (by rw [hid]; rfl)
    obtain ⟨routes, hroutes⟩ := Option.isSome_iff_exists.1 hgroup
    have hserves : f.reconcile.Serves pair routes := by
      rw [reconcile_phases]
      refine serves_foldl (f.pruned.index.groups.sorted.imp fun hlt heq => ?_) hclosed (pair, routes)
        (SortedMap.mem_entries_iff.2 hroutes)
      rw [heq] at hlt
      exact Key.lt_irrefl _ hlt
    obtain ⟨id', t', hid', ht', hr⟩ := hserves
    rw [hid] at hid'
    cases hid'
    rw [ht] at ht'
    cases ht'
    rw [RouteIndex.get?_groups] at hroutes
    split at hroutes
    · cases hroutes
    · cases hroutes
      rw [hr, hindex]
  · exact hreconciled.lineage.current (face?_eq_some.2 ⟨t, ht, rfl⟩) hopen

end Federation

end HubFederation
