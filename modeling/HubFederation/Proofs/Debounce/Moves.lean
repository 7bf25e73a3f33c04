import HubFederation.Proofs.Debounce.Steps

/-!
# The moves of a debounced task

A debounced task and those who make requests take their steps in any order. A `Loop` is the task
between two of its steps, which are finer than those of `Debounce`: the slot is emptied one request
at a time, and requests may come while that goes on, and between the moment when the slot was found
empty and the run.

* `effect_step?`: everything that a move can do to the requests that are held.
* `requesters_step?`: who can still make requests.
-/
namespace HubFederation.Debounce

/-! ## Moves -/

/-- A task between two of its steps. Once it has found the slot empty, acting is its next step. -/
structure Loop where
  task : Debounce
  drained : Bool
  deriving DecidableEq, Repr

inductive Move where
  /-- A requester makes a request, is copied or is gone. -/
  | request
  | attach
  | detach
  /-- The task waits for a request, and then for `ms` milliseconds. -/
  | receive
  | elapse (ms : Nat)
  /-- The task throws away a request that came while it waited. -/
  | discard
  /-- The task finds no more requests. -/
  | drained
  | act (duration : Nat)
  | finish
  /-- The task is stopped. -/
  | abort
  deriving DecidableEq, Repr

/-- Whether a run of the action begins. -/
def Move.isRun : Move → Bool
  | .act _ => true
  | _ => false

namespace Loop

/-- An idle task and one requester. -/
def ofInterval (interval : Nat) : Loop := ⟨.ofInterval interval, false⟩

/-- What comes of a move, if it can be made. Only requesters that are not gone do anything. -/
def step? (s : Loop) : Move → Option Loop
  | .request => if 0 < s.task.requesters then some { s with task := s.task.request } else none
  | .attach => if 0 < s.task.requesters then some { s with task := s.task.attach } else none
  | .detach => if 0 < s.task.requesters then some { s with task := s.task.detach } else none
  | .receive => if s.task.phase = .idle then some { s with task := s.task.receive } else none
  | .elapse ms => some { s with task := s.task.elapse ms }
  | .discard =>
    if s.task.isDue && !s.drained && s.task.pending then some { s with task := s.task.drain }
    else none
  | .drained =>
    if s.task.isDue && !s.drained && !s.task.pending then some { s with drained := true } else none
  | .act duration => if s.drained then some ⟨s.task.act duration, false⟩ else none
  | .finish => if s.task.phase = .acting 0 then some { s with task := s.task.finish } else none
  | .abort => if s.task.isEnded then none else some ⟨s.task.abort, false⟩

/-- What comes of a history of moves, if all of them can be made. -/
def run? (s : Loop) (ms : List Move) : Option Loop := ms.foldlM step? s

@[simp] theorem run?_nil (s : Loop) : s.run? [] = some s := rfl

theorem run?_cons (s : Loop) (m : Move) (ms : List Move) :
    s.run? (m :: ms) = (s.step? m).bind (·.run? ms) := by
  unfold run?
  rw [List.foldlM_cons]
  rfl

theorem run?_append (s : Loop) (ms ms' : List Move) :
    s.run? (ms ++ ms') = (s.run? ms).bind (·.run? ms') := by
  unfold run?
  rw [List.foldlM_append]
  rfl

theorem run?_concat (s : Loop) (ms : List Move) (m : Move) :
    s.run? (ms ++ [m]) = (s.run? ms).bind (·.step? m) := by
  rw [run?_append]
  congr
  funext s'
  rw [run?_cons]
  cases s'.step? m <;> rfl

/-- A run of the action is to come without another request. -/
def isScheduled (s : Loop) : Bool :=
  match s.task.phase with
  | .settling _ => true
  | _ => false

/-- The requests that are held: one in the slot, one by the run that is to come. -/
def held (s : Loop) : Nat := s.task.pending.toNat + s.isScheduled.toNat

variable {s s' : Loop} {m : Move}

/-! ## What a move does -/

theorem isScheduled_of_isDue (h : s.task.isDue = true) : s.isScheduled = true := by
  unfold isDue at h
  unfold isScheduled
  rw [decide_eq_true_eq] at h
  rw [h]

theorem isScheduled_congr (h : s'.task.phase = s.task.phase) : s'.isScheduled = s.isScheduled := by
  unfold isScheduled
  rw [h]

/-- A step that neither asks for a run nor begins one. What is held may move from the slot to a run,
or be given up with the task. -/
structure Carries (s s' : Loop) : Prop where
  ended : s.task.isEnded = true → s'.task.isEnded = true
  pending : s'.task.pending = true → s.task.pending = true
  scheduled : s'.isScheduled = true → s.isScheduled = true ∨ s.task.pending = true
  held : s'.held ≤ s.held
  kept : s'.task.isEnded = false → 0 < s.held → 0 < s'.held

/-- Everything that a move can do to the requests that are held. -/
inductive Effect (s s' : Loop) : Move → Prop where
  | asked (pending : s'.task.isEnded = false → s'.task.pending = true)
    (held : s'.held ≤ s.held + 1) : Effect s s' .request
  | begun {duration : Nat} (scheduled : s.isScheduled = true) (acts : s'.isScheduled = false)
    (pending : s'.task.pending = s.task.pending) : Effect s s' (.act duration)
  | carried {m : Move} (other : m ≠ .request ∧ m.isRun = false) (carries : Carries s s') :
    Effect s s' m

theorem Carries.of_eq (hended : s'.task.isEnded = s.task.isEnded)
    (hpending : s'.task.pending = s.task.pending) (hscheduled : s'.isScheduled = s.isScheduled) :
    Carries s s' := by
  have hheld : s'.held = s.held := by
    unfold Loop.held
    rw [hpending, hscheduled]
  exact ⟨fun h => hended.trans h, fun h => hpending.symm.trans h,
    fun h => .inl (hscheduled.symm.trans h), Nat.le_of_eq hheld, fun _ h => hheld ▸ h⟩

theorem Carries.of_phase (hphase : s'.task.phase = s.task.phase)
    (hpending : s'.task.pending = s.task.pending) : Carries s s' := by
  refine .of_eq ?_ hpending (isScheduled_congr hphase)
  unfold isEnded
  rw [hphase]

/-- A request goes into the slot, whether or not there was one, unless the task has ended. -/
theorem effect_request (hs : s' = { s with task := s.task.request }) : Effect s s' .request := by
  subst hs
  have hscheduled : isScheduled { s with task := s.task.request } = s.isScheduled :=
    isScheduled_congr s.task.phase_request
  refine .asked ?_ ?_
  · unfold request
    split
    next hended => exact fun h => by rw [hended] at h; cases h
    · exact fun _ => rfl
  · have hslot := Bool.toNat_le s.task.request.pending
    unfold held
    rw [hscheduled]
    simp only
    omega

/-- A request moves from the slot to the run that it asks for. Without one the task ends or goes on
waiting. -/
theorem carries_receive (hidle : s.task.phase = .idle) :
    Carries s { s with task := s.task.receive } := by
  have hscheduled : s.isScheduled = false := by simp [isScheduled, hidle]
  cases hpending : s.task.pending with
  | true =>
    rw [receive_of_pending hidle hpending]
    refine ⟨fun h => ?_, fun h => (nomatch h), fun _ => .inr hpending, ?_, fun _ _ => ?_⟩
    · simp [isEnded, hidle] at h
    · simp [held, isScheduled, hpending]
    · simp [held, isScheduled]
  | false =>
    have hnone : s.held = 0 := by simp [held, hpending, hscheduled]
    rcases Nat.eq_zero_or_pos s.task.requesters with hr | hr
    · rw [receive_of_gone hidle hpending hr]
      refine ⟨fun _ => rfl, fun h => h, fun h => (nomatch h), ?_, fun h => (nomatch h)⟩
      simp [held, isScheduled, hpending]
    · rw [receive_of_quiet hidle hpending hr]
      exact .of_eq rfl rfl rfl

theorem carries_elapse (s : Loop) (ms : Nat) : Carries s { s with task := s.task.elapse ms } := by
  unfold elapse
  cases hphase : s.task.phase with
  | idle | ended => exact .of_eq rfl rfl rfl
  | settling | acting =>
    exact .of_eq (by simp [isEnded, hphase]) rfl (by simp [isScheduled, hphase])

/-- What is thrown away came while a run was on its way. -/
theorem carries_discard (hdue : s.task.isDue = true) :
    Carries s { s with task := s.task.drain } := by
  have hscheduled := isScheduled_of_isDue hdue
  have hstill : isScheduled { s with task := s.task.drain } = true := hscheduled
  refine ⟨id, fun h => (nomatch h), fun _ => .inl hscheduled, ?_, fun _ _ => ?_⟩
  · unfold held
    rw [hstill, hscheduled]
    exact Nat.add_le_add_right (Nat.zero_le _) _
  · simp [held, hstill]

theorem carries_finish (hacting : s.task.phase = .acting 0) :
    Carries s { s with task := s.task.finish } := by
  unfold finish
  rw [hacting]
  exact .of_eq (by simp [isEnded, hacting]) rfl (by simp [isScheduled, hacting])

theorem carries_abort (s : Loop) : Carries s ⟨s.task.abort, false⟩ :=
  ⟨fun _ => rfl, fun h => (nomatch h), fun h => (nomatch h), Nat.zero_le _, fun h => (nomatch h)⟩

/-- Everything that a move can do, if the task acts only after its time. -/
theorem effect_step? (hd : s.drained = true → s.task.isDue = true) (h : s.step? m = some s') :
    Effect s s' m := by
  cases m with
  | request =>
    obtain ⟨-, he⟩ := Option.ite_none_right_eq_some.1 h
    exact effect_request (Option.some_inj.1 he).symm
  | attach =>
    obtain ⟨-, he⟩ := Option.ite_none_right_eq_some.1 h
    cases he
    exact .carried ⟨nofun, rfl⟩ (.of_phase rfl rfl)
  | detach =>
    obtain ⟨-, he⟩ := Option.ite_none_right_eq_some.1 h
    cases he
    exact .carried ⟨nofun, rfl⟩ (.of_phase rfl rfl)
  | receive =>
    obtain ⟨hidle, he⟩ := Option.ite_none_right_eq_some.1 h
    cases he
    exact .carried ⟨nofun, rfl⟩ (carries_receive hidle)
  | elapse ms =>
    cases h
    exact .carried ⟨nofun, rfl⟩ (carries_elapse s ms)
  | discard =>
    obtain ⟨hguard, he⟩ := Option.ite_none_right_eq_some.1 h
    cases he
    simp only [Bool.and_eq_true] at hguard
    exact .carried ⟨nofun, rfl⟩ (carries_discard hguard.1.1)
  | drained =>
    obtain ⟨-, he⟩ := Option.ite_none_right_eq_some.1 h
    cases he
    exact .carried ⟨nofun, rfl⟩ (.of_phase rfl rfl)
  | act duration =>
    obtain ⟨hdrained, he⟩ := Option.ite_none_right_eq_some.1 h
    cases he
    exact .begun (isScheduled_of_isDue (hd hdrained)) rfl rfl
  | finish =>
    obtain ⟨hacting, he⟩ := Option.ite_none_right_eq_some.1 h
    cases he
    exact .carried ⟨nofun, rfl⟩ (carries_finish hacting)
  | abort =>
    obtain ⟨-, he⟩ := Option.ite_none_left_eq_some.1 h
    cases he
    exact .carried ⟨nofun, rfl⟩ (carries_abort s)

/-- Requesters come and go one by one, and only by moves of their own. -/
theorem requesters_step? (h : s.step? m = some s') :
    s'.task.requesters + (if m = .detach then 1 else 0) =
      s.task.requesters + (if m = .attach then 1 else 0) := by
  cases m with
  | detach =>
    obtain ⟨hsome, he⟩ := Option.ite_none_right_eq_some.1 h
    cases he
    exact Nat.sub_add_cancel hsome
  | elapse ms =>
    cases h
    simp
  | abort =>
    obtain ⟨-, he⟩ := Option.ite_none_left_eq_some.1 h
    cases he
    rfl
  | request | attach | receive | discard | drained | act | finish =>
    obtain ⟨-, he⟩ := Option.ite_none_right_eq_some.1 h
    cases he
    simp [attach, drain, act]

/-- Acting is the next step only of a task that has waited for as long as it has to. -/
theorem isDue_step? (hd : s.drained = true → s.task.isDue = true) (h : s.step? m = some s') :
    s'.drained = true → s'.task.isDue = true := by
  cases m with
  | request =>
    obtain ⟨-, he⟩ := Option.ite_none_right_eq_some.1 h
    cases he
    unfold Debounce.request
    split <;> exact hd
  | elapse ms =>
    cases h
    intro hdrained
    have hdue := hd hdrained
    unfold isDue at hdue ⊢
    rw [decide_eq_true_eq] at hdue
    simp [elapse, hdue]
  | receive =>
    obtain ⟨hidle, he⟩ := Option.ite_none_right_eq_some.1 h
    cases he
    intro hdrained
    have hdue := hd hdrained
    simp [isDue, hidle] at hdue
  | finish =>
    obtain ⟨hacting, he⟩ := Option.ite_none_right_eq_some.1 h
    cases he
    intro hdrained
    have hdue := hd hdrained
    simp [isDue, hacting] at hdue
  | drained =>
    obtain ⟨hguard, he⟩ := Option.ite_none_right_eq_some.1 h
    cases he
    simp only [Bool.and_eq_true] at hguard
    exact fun _ => hguard.1.1
  | act duration =>
    obtain ⟨-, he⟩ := Option.ite_none_right_eq_some.1 h
    cases he
    exact fun hdrained => nomatch hdrained
  | abort =>
    obtain ⟨-, he⟩ := Option.ite_none_left_eq_some.1 h
    cases he
    exact fun hdrained => nomatch hdrained
  | attach | detach | discard =>
    obtain ⟨-, he⟩ := Option.ite_none_right_eq_some.1 h
    cases he
    exact hd

end Loop

end HubFederation.Debounce
