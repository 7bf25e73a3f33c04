import Mathlib.Data.List.Induction
import HubFederation.Proofs.Federation.Grouped

/-!
# One task of a pair at a time

Tasks of a pair come after each other, however often the pair is closed and opened again. Each
synchronizes a number of times, and then tears down once if it is closed. No task of a pair
does anything to the hubs as long as the teardown of an earlier one is due.

* `jobs`: what a task does in a run.
* `met_step`: what a move does to a task.
* `isDone_of_fair`: a closed task tears down, if it is polled and time passes.
* `one_at_a_time`: what holds after every run.
-/
namespace HubFederation.Federation

variable {f : Federation} {id : Nat} {t t' : Task}

/-! ## Jobs -/

/-- What a task does now. -/
def job? (f : Federation) (id : Nat) : Option Task.Job := f.tasks[id]?.bind (·.job? f.isDone)

/-- What a task does in a move. -/
def jobIn? (f : Federation) (id : Nat) : Move → Option Task.Job
  | .work i => if i = id then f.job? id else none
  | _ => none

/-- What a task does in a run. -/
def jobs (f : Federation) (id : Nat) : List Move → List Task.Job
  | [] => []
  | m :: ms => (f.jobIn? id m).toList ++ (f.step m).jobs id ms

theorem jobs_append (f : Federation) (id : Nat) (ms ms' : List Move) :
    f.jobs id (ms ++ ms') = f.jobs id ms ++ (f.run ms).jobs id ms' := by
  induction ms generalizing f with
  | nil => rfl
  | cons m ms ih => rw [List.cons_append, jobs, jobs, ih, List.append_assoc, run_cons]

theorem jobs_concat (f : Federation) (id : Nat) (ms : List Move) (m : Move) :
    f.jobs id (ms ++ [m]) = f.jobs id ms ++ ((f.run ms).jobIn? id m).toList := by
  rw [jobs_append, jobs, jobs, List.append_nil]

/-- What a task does to the hubs is its job, and it does nothing else. -/
theorem world_pollTask (ht : f.tasks[id]? = some t) :
    (f.pollTask id).world = (f.job? id).elim f.world fun j => (j.run t.mapping f.world).2 := by
  have heffect := congrArg Prod.snd (t.polled f.isDone f.world).effect
  unfold pollTask job?
  rw [ht]
  simp only [Option.bind_some]
  refine heffect.trans ?_
  cases t.job? f.isDone <;> rfl

/-! ## What a move does to a task -/

/-- How long a move takes. -/
def Move.time : Move → Nat
  | .elapse ms => ms
  | _ => 0

/-- A task meets a move: it is polled, time passes for it, or others nudge it. -/
inductive Met (f : Federation) (id : Nat) (t : Task) : Move → Task → Prop
  | worked : Met f id t (.work id) (t.poll f.isDone f.world).1
  | waited (ms : Nat) : Met f id t (.elapse ms) (t.elapse ms)
  | nudged {m : Move} {t' : Task} (h : t.Nudged t') (time : m.time = 0)
    (idle : f.jobIn? id m = none) : Met f id t m t'

theorem met_step (ht : f.tasks[id]? = some t) (m : Move) :
    ∃ t', (f.step m).tasks[id]? = some t' ∧ Met f id t m t' := by
  by_cases helapse : ∃ ms, m = .elapse ms
  · obtain ⟨ms, rfl⟩ := helapse
    refine ⟨_, ?_, .waited ms⟩
    change (f.tasks.map (·.elapse ms))[id]? = _
    rw [List.getElem?_map, ht]
    rfl
  by_cases hwork : ∃ i, m = .work i
  · obtain ⟨i, rfl⟩ := hwork
    by_cases hi : i = id
    · subst hi
      refine ⟨_, ?_, .worked⟩
      change (f.pollTask i).tasks[i]? = _
      rw [getElem?_pollTask ht, if_pos rfl]
    · refine ⟨t, ?_, .nudged (.refl t) rfl (if_neg hi)⟩
      change (f.pollTask i).tasks[id]? = _
      cases hnone : f.tasks[i]? with
      | none => rw [pollTask_of_none hnone, ht]
      | some ti => rw [getElem?_pollTask hnone, if_neg (Ne.symm hi), ht]
  · obtain ⟨t', ht', hn⟩ := (f.nudges_step (fun ms h => helapse ⟨ms, h⟩)
      fun i h => hwork ⟨i, h⟩).kept id t ht
    refine ⟨t', ht', .nudged hn ?_ ?_⟩
    · cases m with
      | elapse ms => exact absurd ⟨ms, rfl⟩ helapse
      | _ => rfl
    · cases m with
      | work i => exact absurd ⟨i, rfl⟩ hwork
      | _ => rfl

namespace Met

variable {m : Move}

theorem jobIn? (h : Met f id t m t') (ht : f.tasks[id]? = some t) :
    (∀ j ∈ f.jobIn? id m, t.isDone = false ∧ j = .next t.closed) ∧
      t'.isDone = (t.isDone || f.jobIn? id m = some .teardown) := by
  cases h with
  | worked =>
    have hpolled := t.polled f.isDone f.world
    have hjob : f.jobIn? id (.work id) = t.job? f.isDone := by
      rw [Federation.jobIn?, if_pos rfl, job?, ht, Option.bind_some]
    rw [hjob]
    exact ⟨hpolled.fits, hpolled.isDone⟩
  | waited ms =>
    refine ⟨fun j hj => absurd hj (Option.not_mem_none j), ?_⟩
    unfold Task.elapse
    split <;> simp [Federation.jobIn?, Task.isDone]
  | nudged hn _ hidle =>
    rw [hidle]
    exact ⟨fun j hj => absurd hj (Option.not_mem_none j), by simp [hn.isDone]⟩

theorem closed (h : Met f id t m t') (hc : t.closed = true) : t'.closed = true := by
  cases h with
  | worked => exact (t.polled f.isDone f.world).closed.trans hc
  | waited ms =>
    unfold Task.elapse
    split <;> exact hc
  | nudged hn => exact hn.closed_of hc

/-- A task that is starting after a move was starting before. -/
theorem starting (h : Met f id t m t') {previous : Option Nat}
    (hs : t'.stage = .starting previous) : t.stage = .starting previous := by
  cases h with
  | worked => rw [(t.polled f.isDone f.world).starting previous hs] at hs; exact hs
  | waited ms =>
    unfold Task.elapse at hs
    split at hs <;> exact hs
  | nudged hn => exact hn.stage ▸ hs

/-- A closed task that has not begun is starting or done after a move. -/
theorem starting_or_done (h : Met f id t m t') {previous : Option Nat}
    (hs : t.stage = .starting previous) (hc : t.closed = true) :
    t'.stage = .starting previous ∨ t'.stage = .done := by
  cases h with
  | worked =>
    unfold Task.poll
    rw [hs]
    simp only
    split
    · exact .inl hs
    · exact .inr rfl
  | waited ms =>
    unfold Task.elapse
    rw [if_neg (by rw [hs]; exact (nomatch ·))]
    exact .inl hs
  | nudged hn => exact .inl (hn.stage.trans hs)

theorem ending {k : Nat} (h : Met f id t m t') (he : t.Ending k) : t'.Ending (k - m.time) := by
  cases h with
  | worked => exact (he.poll f.isDone f.world).1
  | waited ms => exact he.elapse ms
  | nudged hn htime =>
    rw [htime]
    exact he.nudged hn

end Met

/-- What every move keeps of a task holds of it after a run. -/
theorem run_of_met {P : Task → Prop}
    (hmet : ∀ {f : Federation} {t m t'}, Met f id t m t' → P t → P t')
    (ht : f.tasks[id]? = some t) (hp : P t) (ms : List Move) :
    ∃ t', (f.run ms).tasks[id]? = some t' ∧ P t' := by
  induction ms generalizing f t with
  | nil => exact ⟨t, ht, hp⟩
  | cons m ms ih =>
    obtain ⟨t', ht', h⟩ := met_step ht m
    exact ih ht' (hmet h hp)

theorem Met.isDone {m : Move} (h : Met f id t m t') (hd : t.isDone = true) : t'.isDone = true := by
  cases h with
  | worked => rw [(t.polled f.isDone f.world).isDone, hd, Bool.true_or]
  | waited ms =>
    unfold Task.elapse
    split <;> exact hd
  | nudged hn => rw [hn.isDone, hd]

theorem isDone_run (ht : f.tasks[id]? = some t) (hd : t.isDone = true) (ms : List Move) :
    (f.run ms).isDone id = true := by
  obtain ⟨t', ht', hd'⟩ := run_of_met (P := fun t => t.isDone = true) Met.isDone ht hd ms
  rw [isDone_of_getElem? ht', hd']

/-! ## What a task does in a run -/

/-- A task that is closed does not synchronize any more. All that it can do is to tear down, and
that ends it. -/
theorem jobs_of_closed (ht : f.tasks[id]? = some t) (hc : t.closed = true) (ms : List Move) :
    f.jobs id ms =
      if t.isDone = false ∧ (f.run ms).isDone id = true then [.teardown] else [] := by
  induction ms generalizing f t with
  | nil =>
    rw [run_nil, isDone_of_getElem? ht]
    cases t.isDone <;> rfl
  | cons m ms ih =>
    obtain ⟨t', ht', h⟩ := met_step ht m
    obtain ⟨hfits, hdone⟩ := h.jobIn? ht
    rw [jobs, run_cons, ih ht' (h.closed hc), hdone]
    cases hjob : f.jobIn? id m with
    | none => simp
    | some j =>
      obtain ⟨hundone, rfl⟩ := hfits j hjob
      have hnext : Task.Job.next t.closed = .teardown := by
        rw [hc]
        rfl
      rw [hjob, hnext] at hdone
      have hrun := isDone_run ht' (hdone.trans (by simp)) ms
      simp [hundone, hrun, hnext]

/-- A task does nothing before it is there, and is not done when it comes up. -/
theorem new_step (hnone : f.tasks[id]? = none) (m : Move) :
    f.jobIn? id m = none ∧ ∀ t, (f.step m).tasks[id]? = some t → t.isDone = false := by
  by_cases helapse : ∃ ms, m = .elapse ms
  · obtain ⟨ms, rfl⟩ := helapse
    refine ⟨rfl, fun t ht => ?_⟩
    change (f.tasks.map (·.elapse ms))[id]? = some t at ht
    rw [List.getElem?_map, hnone] at ht
    cases ht
  by_cases hwork : ∃ i, m = .work i
  · obtain ⟨i, rfl⟩ := hwork
    refine ⟨?_, fun t ht => ?_⟩
    · simp [jobIn?, job?, hnone]
    · change (f.pollTask i).tasks[id]? = some t at ht
      cases hi : f.tasks[i]? with
      | none =>
        rw [pollTask_of_none hi, hnone] at ht
        cases ht
      | some ti =>
        rw [getElem?_pollTask hi, if_neg, hnone] at ht
        · cases ht
        · rintro rfl
          rw [hnone] at hi
          cases hi
  · refine ⟨?_, fun t ht => ?_⟩
    · cases m with
      | work i => exact absurd ⟨i, rfl⟩ hwork
      | _ => rfl
    · exact ((f.nudges_step (fun ms h => helapse ⟨ms, h⟩) fun i h => hwork ⟨i, h⟩).new
        id t hnone ht).2

/-- A task has synchronized a number of times, and torn down if it is done. -/
theorem jobs_run (w : World) (identityFile : String) (interval : Nat) (ms : List Move) (id : Nat) :
    (((ofWorld w identityFile interval).run ms).tasks[id]? = none →
      (ofWorld w identityFile interval).jobs id ms = []) ∧
    ∀ t, ((ofWorld w identityFile interval).run ms).tasks[id]? = some t →
      ∃ n, (ofWorld w identityFile interval).jobs id ms =
        List.replicate n .sync ++ if t.isDone then [.teardown] else [] := by
  induction ms using List.reverseRecOn with
  | nil => exact ⟨fun _ => rfl, fun t ht => absurd ht (by simp [ofWorld])⟩
  | append_singleton ms m ih =>
    obtain ⟨hnone, hsome⟩ := ih
    rw [run_concat, jobs_concat]
    generalize (ofWorld w identityFile interval).run ms = f at hnone hsome ⊢
    cases ht : f.tasks[id]? with
    | none =>
      obtain ⟨hidle, hnew⟩ := new_step ht m
      rw [hidle, hnone ht]
      exact ⟨fun _ => rfl, fun t ht' => ⟨0, by simp [hnew t ht']⟩⟩
    | some t =>
      obtain ⟨t', ht', h⟩ := met_step ht m
      obtain ⟨hfits, hdone⟩ := h.jobIn? ht
      obtain ⟨n, hjobs⟩ := hsome t ht
      rw [ht', hjobs]
      refine ⟨fun hnone => absurd hnone (by simp), fun t'' ht'' => ?_⟩
      cases ht''
      cases hjob : f.jobIn? id m with
      | none =>
        rw [hjob] at hdone
        exact ⟨n, by simp [hdone]⟩
      | some j =>
        obtain ⟨hundone, rfl⟩ := hfits j hjob
        rw [hjob, hundone] at hdone
        cases hc : t.closed with
        | true =>
          rw [hc] at hdone
          exact ⟨n, by simp [hdone, hundone, Task.Job.next]⟩
        | false =>
          rw [hc] at hdone
          refine ⟨n + 1, ?_⟩
          simp [hdone, hundone, Task.Job.next, List.replicate_succ']

/-! ## One at a time -/

/-- A task does nothing as long as an earlier one of its pair is not done. -/
theorem job?_of_earlier (ho : f.Orderly) {i j : Nat} {ti tj : Task} (hlt : i < j)
    (hi : f.tasks[i]? = some ti) (hj : f.tasks[j]? = some tj)
    (hpair : ti.mapping.pair = tj.mapping.pair) (hdone : ti.isDone = false) : f.job? j = none := by
  have hfi : f.face? i = some ti.face := face?_eq_some.2 ⟨ti, hi, rfl⟩
  have hfj : f.face? j = some tj.face := face?_eq_some.2 ⟨tj, hj, rfl⟩
  have hundone : ti.face.stage ≠ .done := fun hs => by
    rw [Task.isDone_iff.2 hs] at hdone
    cases hdone
  obtain ⟨p, hstage, hle⟩ := ho.lineage.waits hlt hfi hfj hpair hundone
  obtain ⟨-, a, ha, hap⟩ := ho.lineage.previous hfj hstage
  obtain ⟨tp, htp, rfl⟩ := face?_eq_some.1 ha
  have hp : f.isDone p = false := by
    rw [isDone_of_getElem? htp]
    exact Task.isDone_eq_false
      (ho.lineage.not_done hle hfi ha (hpair.trans hap.symm) hundone)
  unfold job?
  rw [hj, Option.bind_some, (Task.poll_of_blocked hstage hp f.world).1]

/-! ## Fair runs -/

/-- The first tasks are polled, in order. -/
def works (n : Nat) : List Move := (List.range n).map .work

/-- How long a run takes. -/
def elapsed : List Move → Nat
  | [] => 0
  | m :: ms => m.time + elapsed ms

theorem elapsed_append (ms ms' : List Move) : elapsed (ms ++ ms') = elapsed ms + elapsed ms' := by
  induction ms with
  | nil => exact (Nat.zero_add _).symm
  | cons m ms ih => rw [List.cons_append, elapsed, elapsed, ih, Nat.add_assoc]

theorem works_succ (n : Nat) : works (n + 1) = works n ++ [.work n] := by
  unfold works
  rw [List.range_succ, List.map_append]
  rfl

theorem works_sublist {n k : Nat} (h : n ≤ k) : (works n).Sublist (works k) :=
  (List.range_sublist.2 h).map _

/-- Where a run polls a task after all earlier ones. -/
theorem split_of_works {n : Nat} {ms : List Move} (h : (works (n + 1)).Sublist ms) :
    ∃ before after, ms = before ++ .work n :: after ∧ (works n).Sublist before := by
  rw [works_succ] at h
  obtain ⟨ms₁, ms₂, rfl, hworks, hlast⟩ := List.append_sublist_iff.1 h
  obtain ⟨between, after, rfl⟩ := List.append_of_mem (List.singleton_sublist.1 hlast)
  exact ⟨ms₁ ++ between, after, by rw [List.append_assoc],
    hworks.trans (List.sublist_append_left ..)⟩

/-- The time that is left for a closed task goes by. -/
theorem ending_run {k : Nat} (ht : f.tasks[id]? = some t) (he : t.Ending k) (ms : List Move) :
    ∃ t', (f.run ms).tasks[id]? = some t' ∧ t'.Ending (k - elapsed ms) := by
  induction ms generalizing f t k with
  | nil => exact ⟨t, ht, he⟩
  | cons m ms ih =>
    obtain ⟨t', ht', h⟩ := met_step ht m
    obtain ⟨t'', ht'', he'⟩ := ih ht' (h.ending he)
    refine ⟨t'', ht'', ?_⟩
    rwa [elapsed, ← Nat.sub_sub]

theorem interval_run (f : Federation) (ms : List Move) : (f.run ms).interval = f.interval := by
  induction ms generalizing f with
  | nil => rfl
  | cons m ms ih =>
    refine (ih (f.step m)).trans ?_
    cases m with
    | work id =>
      change (f.pollTask id).interval = f.interval
      unfold pollTask
      split <;> rfl
    | elapse ms => rfl
    | _ => refine (f.nudges_step (fun ms h => ?_) fun id h => ?_).interval <;> cases h

/-- A task that is done once it is polled stays done. -/
theorem isDone_of_poll (ht : f.tasks[id]? = some t)
    (hdone : (t.poll f.isDone f.world).1.stage = .done) (ms : List Move) :
    (f.run (.work id :: ms)).isDone id = true := by
  have hpolled : (f.step (.work id)).tasks[id]? = some (t.poll f.isDone f.world).1 := by
    change (f.pollTask id).tasks[id]? = _
    rw [getElem?_pollTask ht, if_pos rfl]
  exact isDone_run hpolled (Task.isDone_iff.2 hdone) ms

/-- The time of a closed task that runs is over once the task was polled and time passed. -/
theorem ending_of_running (ho : f.Orderly) (ht : f.tasks[id]? = some t) (hs : t.stage = .running)
    (hc : t.closed = true) {ms ms' : List Move} (hwork : .work id ∈ ms)
    (hms : f.interval ≤ elapsed ms') :
    ∃ t', (f.run (ms ++ ms')).tasks[id]? = some t' ∧ t'.Ending 0 := by
  obtain ⟨before, after, rfl⟩ := List.append_of_mem hwork
  obtain ⟨t₁, ht₁, hc₁, hbegun⟩ := run_of_met
    (P := fun t => t.closed = true ∧ ∀ p, t.stage ≠ .starting p)
    (fun h hp => ⟨h.closed hp.1, fun p hs => hp.2 p (h.starting hs)⟩) ht
    ⟨hc, fun p hp => by cases hs.symm.trans hp⟩ before
  have hending : (t₁.poll (f.run before).isDone (f.run before).world).1.Ending f.interval := by
    cases hs₁ : t₁.stage with
    | starting previous => exact absurd hs₁ (hbegun previous)
    | running =>
      have htuned := (orderly_run ho before).tuned id t₁ ht₁
      rw [interval_run] at htuned
      exact Task.ending_poll htuned hs₁ hc₁ _ _
    | done => exact (Task.Ending.poll (.done hs₁) _ _).1
  have hpolled : ((f.run before).step (.work id)).tasks[id]? =
      some (t₁.poll (f.run before).isDone (f.run before).world).1 := by
    change ((f.run before).pollTask id).tasks[id]? = _
    rw [getElem?_pollTask ht₁, if_pos rfl]
  obtain ⟨t', ht', he⟩ := ending_run hpolled hending (after ++ ms')
  refine ⟨t', ?_, ?_⟩
  · rw [List.append_assoc, run_append, List.cons_append, run_cons]
    exact ht'
  · have hzero : f.interval - elapsed (after ++ ms') = 0 := by
      rw [elapsed_append]
      omega
    rwa [hzero] at he

/-- The task that a closed one waits for is closed. -/
theorem closed_previous (ho : f.Orderly) (ht : f.tasks[id]? = some t) {p : Nat}
    (hs : t.stage = .starting (some p)) :
    p < id ∧ ∃ tp, f.tasks[p]? = some tp ∧ tp.closed = true := by
  have hface : f.face? id = some t.face := face?_eq_some.2 ⟨t, ht, rfl⟩
  obtain ⟨hlt, a, ha, hpair⟩ := ho.lineage.previous hface hs
  obtain ⟨tp, htp, rfl⟩ := face?_eq_some.1 ha
  refine ⟨hlt, tp, htp, ?_⟩
  cases hopen : tp.closed with
  | true => rfl
  | false =>
    -- An open task would be the latest one of its pair.
    have hcurrent := ho.lineage.current ha hopen
    rw [hpair] at hcurrent
    exact absurd (ho.lineage.latest hface hcurrent) (Nat.not_le.2 hlt)

/-- A closed task tears down in every run that polls the tasks up to it, lets its time pass and
polls them again, whatever else happens in between. -/
theorem isDone_of_fair (ho : f.Orderly) (ht : f.tasks[id]? = some t) (hc : t.closed = true)
    {ms₁ ms₂ ms₃ : List Move} (h₁ : (works (id + 1)).Sublist ms₁) (h₂ : f.interval ≤ elapsed ms₂)
    (h₃ : (works (id + 1)).Sublist ms₃) : (f.run (ms₁ ++ ms₂ ++ ms₃)).isDone id = true := by
  induction id using Nat.strongRecOn generalizing t ms₃ with
  | _ id ih =>
    obtain ⟨before, after, rfl, hbefore⟩ := split_of_works h₃
    rw [← List.append_assoc, run_append]
    cases hs : t.stage with
    | done =>
      obtain ⟨t', ht', hdone⟩ := run_of_met (P := fun t => t.isDone = true) Met.isDone ht
        (Task.isDone_iff.2 hs) (ms₁ ++ ms₂ ++ before)
      exact isDone_run ht' hdone _
    | running =>
      have hwork : .work id ∈ ms₁ := by
        rw [works_succ] at h₁
        exact h₁.subset (List.mem_append_right _ (List.mem_singleton.2 rfl))
      obtain ⟨t', ht', he⟩ := ending_of_running ho ht hs hc hwork h₂
      obtain ⟨t'', ht'', he'⟩ := ending_run ht' he before
      rw [← run_append] at ht''
      rw [Nat.zero_sub] at he'
      exact isDone_of_poll ht'' ((he'.poll _ _).2 rfl) after
    | starting previous =>
      obtain ⟨t', ht', hc', hs'⟩ := run_of_met
        (P := fun t => t.closed = true ∧ (t.stage = .starting previous ∨ t.stage = .done))
        (fun h hp => ⟨h.closed hp.1, hp.2.elim (h.starting_or_done · hp.1)
          fun hd => .inr (Task.isDone_iff.1 (h.isDone (Task.isDone_iff.2 hd)))⟩) ht
        ⟨hc, .inl hs⟩ (ms₁ ++ ms₂ ++ before)
      rcases hs' with hs' | hs'
      · refine isDone_of_poll ht' (Task.stage_poll_of_closed hs' hc' (fun p hp => ?_) _) after
        obtain ⟨hlt, tp, htp, hcp⟩ := closed_previous ho ht (hs.trans (congrArg _ hp))
        exact ih p hlt htp hcp ((works_sublist (Nat.succ_le_succ (Nat.le_of_lt hlt))).trans h₁)
          ((works_sublist hlt).trans hbefore)
      · exact isDone_run ht' (Task.isDone_iff.2 hs') _

/-! ## After every run -/

/-- After every run: regrouping leaves open the tasks of the pairs that have routes, with these
routes, and no others. Each task has synchronized a number of times, and torn down if it is done;
a closed one can do nothing else than that, and does so if it gets to run. What a task does to the
hubs is its job, and it has none before every earlier task of its pair tore down. -/
theorem one_at_a_time (w : World) (identityFile : String) (interval : Nat) (ms : List Move) :
    let start := ofWorld w identityFile interval
    let f := start.run ms
    (f.reconcile.Grouped ∧ (f.regrouping.receive.isDue = true → f.pollRegrouping.Grouped)) ∧
    ∀ (id : Nat) (t : Task), f.tasks[id]? = some t →
      (∃ n, start.jobs id ms =
        List.replicate n .sync ++ if t.isDone then [.teardown] else []) ∧
      (t.closed = true →
        (∀ ms', f.jobs id ms' =
          if t.isDone = false ∧ (f.run ms').isDone id = true then [.teardown] else []) ∧
        ∀ ms₁ ms₂ ms₃, (works (id + 1)).Sublist ms₁ → interval ≤ elapsed ms₂ →
          (works (id + 1)).Sublist ms₃ → (f.run (ms₁ ++ ms₂ ++ ms₃)).isDone id = true) ∧
      (f.pollTask id).world = (f.job? id).elim f.world (fun j => (j.run t.mapping f.world).2) ∧
      ∀ (i : Nat) (ti : Task), i < id → f.tasks[i]? = some ti →
        ti.mapping.pair = t.mapping.pair → f.job? id ≠ none → .teardown ∈ start.jobs i ms := by
  intro start f
  have ho : f.Orderly := orderly_run (orderly_ofWorld w identityFile interval) ms
  have hinterval : f.interval = interval := interval_run start ms
  have hjobs (id : Nat) := (jobs_run w identityFile interval ms id).2
  refine ⟨⟨grouped_reconcile ho, fun hdue => ?_⟩, fun id t ht => ⟨hjobs id t ht,
    fun hc => ⟨jobs_of_closed ht hc, fun ms₁ ms₂ ms₃ h₁ h₂ h₃ => ?_⟩, world_pollTask ht,
    fun i ti hlt hi hpair hjob => ?_⟩⟩
  · obtain ⟨regrouping, h⟩ := f.pollRegrouping_cases
    rw [h, if_pos hdue]
    exact grouped_reconcile (ho.quiet (quiet_of_tasks rfl rfl rfl rfl rfl))
  · exact isDone_of_fair ho ht hc h₁ (hinterval ▸ h₂) h₃
  · have hdone : ti.isDone = true := by
      cases hundone : ti.isDone with
      | true => rfl
      | false => exact absurd (job?_of_earlier ho hlt hi ht hpair hundone) hjob
    obtain ⟨n, hn⟩ := hjobs i ti hi
    rw [hn, hdone]
    exact List.mem_append_right _ (List.mem_singleton.2 rfl)

/-- A route from one hub to another one. -/
def shuttle : Route := ⟨some "n", "r", ⟨⟨"a", ⟨"n", "s"⟩⟩, ⟨"b", ⟨"n", "s"⟩⟩⟩, none⟩

/-- Hubs that nothing is known of. -/
def deserted : World := ⟨.ofPool default, .ofCapacity 1, .empty, [], default⟩

/-- The route goes and comes back while its first task is open and has synchronized. -/
def comeback : List Move :=
  [.apply shuttle, .reconcile, .work 0, .elapse 100, .work 0, .delete ⟨"n", "r"⟩, .reconcile,
    .apply shuttle, .reconcile]

/-- The second task waits for the first one, which tears down and is done in time. -/
theorem one_at_a_time_comeback :
    let start := ofWorld deserted "/key" 100
    let f := start.run comeback
    start.jobs 0 comeback = [.sync] ∧ f.job? 1 = none ∧
      f.jobs 0 (works 1 ++ [.elapse 100] ++ works 1) = [.teardown] := by
  intro start f
  obtain ⟨-, htasks⟩ := one_at_a_time deserted "/key" 100 comeback
  have hfirst : ∃ t, f.tasks[0]? = some t ∧ t.closed = true ∧ t.isDone = false ∧
      t.mapping.pair = ("a", "b") := by
    have h : f.tasks[0]?.map (fun t => (t.closed, t.isDone, t.mapping.pair)) =
        some (true, false, "a", "b") := by decide +kernel
    obtain ⟨t, ht, hfacts⟩ := Option.map_eq_some_iff.1 h
    simp only [Prod.mk.injEq] at hfacts
    exact ⟨t, ht, hfacts⟩
  have hsecond : ∃ t, f.tasks[1]? = some t ∧ t.mapping.pair = ("a", "b") := by
    have h : f.tasks[1]?.map (·.mapping.pair) = some ("a", "b") := by decide +kernel
    exact Option.map_eq_some_iff.1 h
  have hjobs : start.jobs 0 comeback = [.sync] := by decide +kernel
  obtain ⟨t₀, ht₀, hc, hundone, hpair₀⟩ := hfirst
  obtain ⟨t₁, ht₁, hpair₁⟩ := hsecond
  obtain ⟨-, hclosed, -, -⟩ := htasks 0 t₀ ht₀
  obtain ⟨-, -, -, hearlier⟩ := htasks 1 t₁ ht₁
  obtain ⟨hteardown, hfair⟩ := hclosed hc
  refine ⟨hjobs, ?_, ?_⟩
  · refine Decidable.byContradiction fun hjob => ?_
    have hmem := hearlier 0 t₀ Nat.zero_lt_one ht₀ (hpair₀.trans hpair₁.symm) hjob
    rw [hjobs] at hmem
    cases List.mem_singleton.1 hmem
  · rw [hteardown, if_pos ⟨hundone, hfair (works 1) [.elapse 100] (works 1) (.refl _)
      (Nat.le_refl _) (.refl _)⟩]

end HubFederation.Federation
