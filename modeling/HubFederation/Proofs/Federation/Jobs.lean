import HubFederation.Proofs.Debounce.Steps
import HubFederation.Proofs.Federation.Moves

/-!
# What tasks do

Whenever a task is polled it does nothing, synchronizes, or tears down. It tears down if it is
closed and synchronizes if it is not, and before it has begun it does neither for as long as
the task that it waits for is not done. Everything else that happens to a task only asks it for
something, or closes it.

* `polled`: everything that polling a task can do.
* `Nudged`: everything that others can do to a task.
* `ending_poll`, `Ending.poll`: a closed task that runs is done once it was polled, its time
  passed, and it was polled again.
-/
namespace HubFederation

/-- A teardown leaves the pair what it is. -/
theorem Mapping.mapping_teardown (m : Mapping) (w : World) :
    (m.teardown w).1 =
      { m with cache := (m.teardown w).1.cache, seeded := (m.teardown w).1.seeded } := by
  obtain ⟨failed, h⟩ := m.issued_teardown w
  have hmapping := h.mapping
  simp only at hmapping
  rw [hmapping, (reads_seed (m.way w) m w).mapping]

namespace Task

/-! ## Polling -/

inductive Job where
  | sync
  | teardown
  deriving DecidableEq, Repr

def Job.run : Job → Mapping → World → Mapping × World
  | sync => Mapping.sync
  | teardown => Mapping.teardown

/-- A task tears down if it is closed, and synchronizes if it is not. -/
def Job.next (closed : Bool) : Job := if closed then teardown else sync

/-- A controller remains what it is but for what it remembers. -/
theorem Job.mapping_run (j : Job) (m : Mapping) (w : World) : (j.run m w).1 =
    { m with cache := (j.run m w).1.cache, seeded := (j.run m w).1.seeded } := by
  cases j with
  | sync => exact m.mapping_sync w
  | teardown => exact m.mapping_teardown w

theorem Job.agrees_run (j : Job) (m : Mapping) (w : World) :
    w.fleet.Agrees (j.run m w).2.fleet := by
  cases j with
  | sync =>
    unfold run
    rw [Mapping.fleet_sync]
    exact ⟨rfl, rfl, rfl, rfl⟩
  | teardown =>
    unfold run
    rw [Mapping.fleet_teardown]
    exact ⟨rfl, rfl, rfl, rfl⟩

/-- Only a synchronization asks for the ports that routes publish. -/
theorem Job.steps_run (j : Job) (m : Mapping) (w : World) : ∃ w',
    Mapping.Steps m.pair (m.Takes w.fleet fun peer => j = sync ∧ m.Publishes w.fleet peer) w w' ∧
      (j.run m w).2.fleet.ports = w'.fleet.ports := by
  cases j with
  | sync =>
    obtain ⟨w', hsteps, hports⟩ := m.steps_sync w
    exact ⟨w', by simpa using hsteps, hports⟩
  | teardown =>
    obtain ⟨w', hsteps, hports⟩ := m.steps_teardown w
    exact ⟨w', hsteps.mono fun _ => .inl, hports⟩

/-- What a running task does now. -/
def due? (t : Task) : Option Job :=
  if t.debounce.receive.isDue then some (.next t.closed) else none

/-- What a task does now, `isDone` telling which tasks are done. -/
def job? (isDone : Nat → Bool) (t : Task) : Option Job :=
  match t.stage with
  | .done => none
  | .running => t.due?
  | .starting previous =>
    if !(previous.map isDone).getD true then none
    else if t.closed then some .teardown
    else t.due?

/-- What comes of a task that does a job. -/
structure Polled (t : Task) (w : World) (job : Option Job) (r : Task × World) : Prop where
  closed : r.1.closed = t.closed
  isDone : r.1.isDone = (t.isDone || job = some .teardown)
  /-- A task that has not begun was not let. -/
  starting : ∀ previous, r.1.stage = .starting previous → r = (t, w)
  fits : ∀ j ∈ job, t.isDone = false ∧ j = .next t.closed
  effect : (r.1.mapping, r.2) = job.elim (t.mapping, w) (·.run t.mapping w)

theorem Polled.mapping {t : Task} {w : World} {job : Option Job} {r : Task × World}
    (h : t.Polled w job r) : r.1.mapping =
      { t.mapping with cache := r.1.mapping.cache, seeded := r.1.mapping.seeded } := by
  have hmapping := congrArg Prod.fst h.effect
  simp only at hmapping
  rw [hmapping]
  cases job with
  | none => rfl
  | some j => exact j.mapping_run t.mapping w

theorem Polled.pair {t : Task} {w : World} {job : Option Job} {r : Task × World}
    (h : t.Polled w job r) : r.1.mapping.pair = t.mapping.pair := by
  rw [h.mapping]
  rfl

theorem isDone_iff {t : Task} : t.isDone = true ↔ t.stage = .done := by
  unfold isDone
  rw [decide_eq_true_iff]

theorem isDone_eq_false {t : Task} (h : t.stage ≠ .done) : t.isDone = false := by
  rw [← Bool.not_eq_true, isDone_iff]
  exact h

theorem polled_same (t : Task) (w : World) : t.Polled w none (t, w) :=
  ⟨rfl, by simp, fun _ _ => rfl, fun _ => (nomatch ·), rfl⟩

theorem polled_finish {t : Task} (hs : t.stage ≠ .done) (hc : t.closed = true) (w : World) :
    t.Polled w (some .teardown) (t.finish w) := by
  refine ⟨rfl, by simp [finish, isDone], fun _ => (nomatch ·), fun j hj => ?_, rfl⟩
  cases hj
  rw [hc]
  exact ⟨isDone_eq_false hs, rfl⟩

/-- A task that runs does what is due, and has begun. -/
theorem polled_act {t : Task} (h : t.stage = .running) (w : World) :
    t.Polled w (if t.debounce.isDue then some (.next t.closed) else none) (t.act w) ∧
      ∀ previous, (t.act w).1.stage ≠ .starting previous := by
  have hs : t.stage ≠ .done := by
    rw [h]
    exact (nomatch ·)
  unfold act
  cases t.debounce.isDue with
  | false =>
    refine ⟨t.polled_same w, fun p hp => ?_⟩
    cases h.symm.trans hp
  | true =>
    simp only [Bool.not_true, Bool.false_eq_true, if_false, if_true]
    split
    next hclosed =>
      have hfinish := polled_finish hs hclosed w
      rw [hclosed]
      exact ⟨hfinish, fun _ => (nomatch ·)⟩
    next hopen =>
      rw [Bool.not_eq_true] at hopen
      refine ⟨⟨rfl, ?_, fun p hp => ?_, fun j hj => ?_, ?_⟩, fun p hp => ?_⟩
      · rw [isDone_eq_false hs, hopen]
        exact isDone_eq_false hs
      · cases h.symm.trans hp
      · exact ⟨isDone_eq_false hs, (Option.some.inj hj).symm⟩
      · rw [hopen]
        rfl
      · cases h.symm.trans hp

theorem polled_run {t : Task} (h : t.stage = .running) (w : World) :
    t.Polled w t.due? (t.run w) ∧ ∀ previous, (t.run w).1.stage ≠ .starting previous := by
  obtain ⟨hact, hbegun⟩ := polled_act (t := { t with debounce := t.debounce.receive }) h w
  exact ⟨⟨hact.closed, hact.isDone, fun p hp => absurd hp (hbegun p), hact.fits, hact.effect⟩,
    hbegun⟩

/-- Polling a task has it do what it does now. -/
theorem polled (isDone : Nat → Bool) (t : Task) (w : World) :
    t.Polled w (t.job? isDone) (t.poll isDone w) := by
  unfold poll job?
  cases hstage : t.stage with
  | done => exact t.polled_same w
  | running => exact (polled_run hstage w).1
  | starting previous =>
    have hs : t.stage ≠ .done := by
      rw [hstage]
      exact (nomatch ·)
    simp only
    split
    · exact t.polled_same w
    · split
      next hclosed => exact polled_finish hs hclosed w
      · obtain ⟨hrun, hbegun⟩ := polled_run (t := { t with stage := .running }) rfl w
        refine ⟨hrun.closed, ?_, fun previous hs => absurd hs (hbegun previous),
          fun j hj => ⟨isDone_eq_false hs, (hrun.fits j hj).2⟩, hrun.effect⟩
        rw [isDone_eq_false hs]
        exact hrun.isDone

/-- What a task does leaves the hubs as they were but for ConfigMaps and bind ports. -/
theorem Polled.agrees {t : Task} {w : World} {job : Option Job} {r : Task × World}
    (h : t.Polled w job r) : w.fleet.Agrees r.2.fleet := by
  have hworld := congrArg Prod.snd h.effect
  simp only at hworld
  rw [hworld]
  cases job with
  | none => exact .refl _
  | some j => exact j.agrees_run t.mapping w

/-- What a task does to bind ports, its controller does before it writes. Only an open task asks
for the ports that routes publish. -/
theorem Polled.steps {t : Task} {w : World} {job : Option Job} {r : Task × World}
    (h : t.Polled w job r) : ∃ w', Mapping.Steps t.mapping.pair (t.mapping.Takes w.fleet fun peer =>
        t.closed = false ∧ t.mapping.Publishes w.fleet peer) w w' ∧
      r.2.fleet.ports = w'.fleet.ports := by
  have hworld := congrArg Prod.snd h.effect
  simp only at hworld
  rw [hworld]
  cases job with
  | none => exact ⟨w, .refl w, rfl⟩
  | some j =>
    have hopen (hj : j = .sync) : t.closed = false := by
      have hnext := (h.fits j rfl).2
      cases hclosed : t.closed with
      | false => rfl
      | true =>
        rw [hj, hclosed] at hnext
        cases hnext
    obtain ⟨w', hsteps, hports⟩ := j.steps_run t.mapping w
    refine ⟨w', hsteps.mono fun s hs => hs.imp_right fun hrenders => ?_, hports⟩
    exact hrenders.mono fun peer ⟨hj, hpublishes⟩ => ⟨hopen hj, hpublishes⟩

/-- A task whose predecessor is not done does nothing. -/
theorem poll_of_blocked {isDone : Nat → Bool} {t : Task} {p : Nat}
    (hstage : t.stage = .starting (some p)) (hp : isDone p = false) (w : World) :
    t.job? isDone = none ∧ t.poll isDone w = (t, w) := by
  unfold job? poll
  rw [hstage]
  simp [hp]

/-! ## What others do to a task -/

/-- A task is asked for something, or closed, or neither. -/
structure Nudged (t t' : Task) : Prop where
  pair : t'.mapping.pair = t.mapping.pair
  stage : t'.stage = t.stage
  debounce : t'.debounce = t.debounce ∨ t'.debounce = t.debounce.request
  closed : t'.closed = t.closed ∨ t'.closed = true ∧ t'.debounce = t.debounce.request

theorem Nudged.refl (t : Task) : t.Nudged t := ⟨rfl, rfl, .inl rfl, .inl rfl⟩

theorem Nudged.trans {t t' t'' : Task} (h : t.Nudged t') (h' : t'.Nudged t'') : t.Nudged t'' := by
  have hrequest (hreq : t''.debounce = t'.debounce.request) :
      t''.debounce = t.debounce.request := by
    rw [hreq]
    rcases h.debounce with hd | hd
    · rw [hd]
    · rw [hd, Debounce.request_request]
  refine ⟨h'.pair.trans h.pair, h'.stage.trans h.stage, ?_, ?_⟩
  · rcases h'.debounce with hd | hd
    · rw [hd]
      exact h.debounce
    · exact .inr (hrequest hd)
  · rcases h'.closed with hc | ⟨hc, hd⟩
    · rcases h.closed with hc' | ⟨hc', hd'⟩
      · exact .inl (hc.trans hc')
      · refine .inr ⟨hc.trans hc', ?_⟩
        rcases h'.debounce with hd | hd
        · rw [hd, hd']
        · exact hrequest hd
    · exact .inr ⟨hc, hrequest hd⟩

theorem nudged_request (t : Task) : t.Nudged t.request := ⟨rfl, rfl, .inr rfl, .inl rfl⟩

theorem nudged_setRoutes (t : Task) (routes : List Route) : t.Nudged (t.setRoutes routes) :=
  ⟨rfl, rfl, .inl rfl, .inl rfl⟩

theorem nudged_close (t : Task) : t.Nudged t.close := ⟨rfl, rfl, .inr rfl, .inr ⟨rfl, rfl⟩⟩

theorem Nudged.isDone {t t' : Task} (h : t.Nudged t') : t'.isDone = t.isDone := by
  unfold Task.isDone
  rw [h.stage]

theorem Nudged.closed_of {t t' : Task} (h : t.Nudged t') (hc : t.closed = true) :
    t'.closed = true := by
  rcases h.closed with hc' | ⟨hc', -⟩
  · rw [hc', hc]
  · exact hc'

/-! ## How long a task waits -/

/-- Where the debouncing of a task stands that has been asked for something if it is closed. -/
inductive Waiting (t : Task) : Prop
  | idle (phase : t.debounce.phase = .idle) (asked : t.closed = true → t.debounce.pending = true)
  | settling (left : Nat) (phase : t.debounce.phase = .settling left)
    (soon : left ≤ t.debounce.interval)

/-- The debouncing of a task is what its stage makes of it. -/
structure Tuned (interval : Nat) (t : Task) : Prop where
  interval : t.debounce.interval = interval
  requesters : t.debounce.requesters = 1
  starting : ∀ previous, t.stage = .starting previous →
    t.debounce.phase = .idle ∧ (t.closed = true → t.debounce.pending = true)
  running : t.stage = .running → t.Waiting

/-- A task that has been closed while it was idle has been asked for something. -/
theorem Nudged.asked {t t' : Task} (h : t.Nudged t') (phase : t.debounce.phase = .idle)
    (asked : t.closed = true → t.debounce.pending = true) (hc : t'.closed = true) :
    t'.debounce.pending = true := by
  have hrequest (hd : t'.debounce = t.debounce.request) : t'.debounce.pending = true := by
    rw [hd, Debounce.request_of_idle phase]
  rcases h.closed with hc' | ⟨-, hd⟩
  · rcases h.debounce with hd | hd
    · rw [hd]
      exact asked (hc' ▸ hc)
    · exact hrequest hd
  · exact hrequest hd

theorem Nudged.same_debounce {t t' : Task} (h : t.Nudged t') :
    t'.debounce.phase = t.debounce.phase ∧ t'.debounce.interval = t.debounce.interval ∧
      t'.debounce.requesters = t.debounce.requesters := by
  rcases h.debounce with hd | hd <;> rw [hd] <;> simp

theorem Nudged.waiting {t t' : Task} (h : t.Nudged t') (hw : t.Waiting) : t'.Waiting := by
  obtain ⟨hphase, hinterval, -⟩ := h.same_debounce
  cases hw with
  | idle phase asked => exact .idle (hphase.trans phase) (h.asked phase asked)
  | settling left phase soon => exact .settling left (hphase.trans phase) (hinterval ▸ soon)

variable {interval : Nat} {t t' : Task}

theorem tuned_ofMapping (m : Mapping) (interval : Nat) (previous : Option Nat) :
    (ofMapping m interval previous).Tuned interval :=
  ⟨rfl, rfl, fun _ _ => ⟨rfl, (nomatch ·)⟩, (nomatch ·)⟩

theorem Tuned.nudged (ht : t.Tuned interval) (h : t.Nudged t') : t'.Tuned interval := by
  obtain ⟨hphase, hinterval, hrequesters⟩ := h.same_debounce
  refine ⟨hinterval.trans ht.interval, hrequesters.trans ht.requesters, fun previous hs => ?_,
    fun hs => h.waiting (ht.running (h.stage ▸ hs))⟩
  obtain ⟨phase, asked⟩ := ht.starting previous (h.stage ▸ hs)
  exact ⟨hphase.trans phase, h.asked phase asked⟩

theorem Tuned.elapse (ht : t.Tuned interval) (ms : Nat) : (t.elapse ms).Tuned interval := by
  unfold Task.elapse
  split
  next hs =>
    cases ht.running hs with
    | idle phase asked =>
      rw [Debounce.elapse_of_idle phase]
      exact ht
    | settling left phase soon =>
      rw [Debounce.elapse_of_settling phase]
      refine ⟨ht.interval, ht.requesters, fun previous h => ?_, fun _ =>
        .settling (left - ms) rfl (Nat.le_trans (Nat.sub_le ..) soon)⟩
      cases hs.symm.trans h
  · exact ht

theorem tuned_finish (ht : t.Tuned interval) (w : World) : (t.finish w).1.Tuned interval :=
  ⟨ht.interval, ht.requesters, fun _ => (nomatch ·), (nomatch ·)⟩

theorem tuned_of_running (hs : t.stage = .running) (hinterval : t.debounce.interval = interval)
    (hrequesters : t.debounce.requesters = 1) (hw : t.Waiting) : t.Tuned interval := by
  refine ⟨hinterval, hrequesters, fun previous h => ?_, fun _ => hw⟩
  cases hs.symm.trans h

/-- A running task is still waiting, or is done, after it did what was due. -/
theorem tuned_run (ht : t.Tuned interval) (hs : t.stage = .running) (w : World) :
    (t.run w).1.Tuned interval := by
  -- Once it looked for a request, the task waits, and is closed only if time is running.
  have hreceive : Tuned interval { t with debounce := t.debounce.receive } := by
    cases ht.running hs with
    | idle phase asked =>
      cases hp : t.debounce.pending with
      | true =>
        rw [Debounce.receive_of_pending phase hp]
        exact tuned_of_running hs ht.interval ht.requesters
          (.settling _ rfl (Nat.le_refl _))
      | false =>
        rw [Debounce.receive_of_quiet phase hp (Nat.lt_of_lt_of_eq Nat.one_pos ht.requesters.symm)]
        exact ht
    | settling left phase soon =>
      rw [Debounce.receive_of_settling phase]
      exact ht
  unfold run act
  simp only
  split
  · exact hreceive
  next hdue =>
    split
    · exact tuned_finish hreceive w
    next hopen =>
      simp only [Bool.not_eq_true', Bool.not_eq_false, Debounce.isDue, decide_eq_true_eq] at hdue
      rw [Debounce.act_of_due hdue hreceive.requesters]
      exact tuned_of_running hs hreceive.interval hreceive.requesters
        (.idle rfl fun hclosed => absurd hclosed hopen)

theorem Tuned.poll (ht : t.Tuned interval) (isDone : Nat → Bool) (w : World) :
    (t.poll isDone w).1.Tuned interval := by
  unfold Task.poll
  cases hstage : t.stage with
  | done => exact ht
  | running => exact tuned_run ht hstage w
  | starting previous =>
    simp only
    split
    · exact ht
    · split
      · exact tuned_finish ht w
      · obtain ⟨phase, asked⟩ := ht.starting previous hstage
        exact tuned_run (t := { t with stage := .running })
          (tuned_of_running rfl ht.interval ht.requesters (.idle phase asked)) rfl w

/-! ## How a closed task ends -/

/-- A task is done, or it is closed and has up to `k` milliseconds to go. -/
inductive Ending (k : Nat) (t : Task) : Prop
  | done (stage : t.stage = .done)
  | soon (stage : t.stage = .running) (closed : t.closed = true) (left : Nat)
    (phase : t.debounce.phase = .settling left) (bound : left ≤ k)

theorem Ending.nudged {k : Nat} (h : t.Ending k) (hn : t.Nudged t') : t'.Ending k := by
  cases h with
  | done stage => exact .done (hn.stage.trans stage)
  | soon stage closed left phase bound =>
    exact .soon (hn.stage.trans stage) (hn.closed_of closed) left
      (hn.same_debounce.1.trans phase) bound

theorem Ending.elapse {k : Nat} (h : t.Ending k) (ms : Nat) : (t.elapse ms).Ending (k - ms) := by
  unfold Task.elapse
  cases h with
  | done stage =>
    rw [if_neg (by rw [stage]; exact (nomatch ·))]
    exact .done stage
  | soon stage closed left phase bound =>
    rw [if_pos stage, Debounce.elapse_of_settling phase]
    exact .soon stage closed (left - ms) rfl (Nat.sub_le_sub_right bound ms)

/-- A closed task whose time is running does nothing before it is over, and then tears down. -/
theorem Ending.poll {k : Nat} (h : t.Ending k) (isDone : Nat → Bool) (w : World) :
    (t.poll isDone w).1.Ending k ∧ (k = 0 → (t.poll isDone w).1.stage = .done) := by
  unfold Task.poll
  cases h with
  | done stage =>
    rw [stage]
    exact ⟨.done stage, fun _ => stage⟩
  | soon stage closed left phase bound =>
    rw [stage]
    unfold run act
    simp only [Debounce.receive_of_settling phase, Debounce.isDue, phase]
    split
    next hleft =>
      refine ⟨.soon stage closed left phase bound, fun hk => ?_⟩
      rw [hk, Nat.le_zero] at bound
      rw [bound] at hleft
      simp at hleft
    · exact ⟨.done rfl, fun _ => rfl⟩

/-- The time of a closed task runs once it was polled. -/
theorem ending_poll (ht : t.Tuned interval) (hs : t.stage = .running) (hc : t.closed = true)
    (isDone : Nat → Bool) (w : World) : (t.poll isDone w).1.Ending interval := by
  cases ht.running hs with
  | settling left phase soon =>
    exact (Ending.poll (.soon hs hc left phase (ht.interval ▸ soon)) isDone w).1
  | idle phase asked =>
    unfold Task.poll
    rw [hs]
    unfold run act
    simp only [Debounce.receive_of_pending phase (asked hc)]
    split
    · exact .soon hs hc _ rfl (Nat.le_of_eq ht.interval)
    · exact .done rfl

/-- A closed task that has not begun is done as soon as nobody stops it. -/
theorem stage_poll_of_closed {previous : Option Nat} (hs : t.stage = .starting previous)
    (hc : t.closed = true) {isDone : Nat → Bool} (hp : ∀ p ∈ previous, isDone p = true)
    (w : World) : (t.poll isDone w).1.stage = .done := by
  have hfree : (previous.map isDone).getD true = true := by
    cases previous with
    | none => rfl
    | some p => exact hp p rfl
  unfold Task.poll
  simp [hs, hfree, hc, finish]

end Task

namespace Federation

theorem agrees_pollTask (f : Federation) (id : Nat) :
    f.world.fleet.Agrees (f.pollTask id).world.fleet := by
  unfold pollTask
  split
  · exact .refl _
  next t _ => exact (t.polled f.isDone f.world).agrees

end Federation

end HubFederation
