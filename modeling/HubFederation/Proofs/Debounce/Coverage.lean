import HubFederation.Proofs.Debounce.Moves
import Mathlib.Data.List.Induction

/-!
# No request is lost

The slot of a debounced task holds one request, and what the task finds there after it has waited
is thrown away; so most requests leave no trace of their own. Each of them is honored all the same:
as long as no run began after it, there is a request in the slot or the task is on its way to a run.

* `Loop.Tracks`: what the history of a task tells of it.
* `tracks_step`: a move keeps that.
* `no_request_lost`: what holds after every history.
-/
namespace HubFederation.Debounce.Loop

variable {s s' : Loop} {m : Move}

/-! ## What a history tells of a task -/

/-- An element of a list that was extended is the new one or stands in the list before. -/
theorem concat_eq_append_cons {α : Type} {as before after : List α} {a x : α}
    (h : as ++ [a] = before ++ x :: after) :
    (as = before ∧ a = x ∧ after = []) ∨
      ∃ rest, after = rest ++ [a] ∧ as = before ++ x :: rest := by
  rcases List.eq_nil_or_concat after with rfl | ⟨rest, y, rfl⟩
  · obtain ⟨rfl, he⟩ := List.append_inj' h rfl
    cases he
    exact .inl ⟨rfl, rfl, rfl⟩
  · rw [List.concat_eq_append] at h ⊢
    rw [← List.cons_append, ← List.append_assoc] at h
    obtain ⟨rfl, he⟩ := List.append_inj' h rfl
    cases he
    exact .inr ⟨rest, rfl, rfl⟩

/-- What is known of the task after the moves `ms`. -/
structure Tracks (ms : List Move) (s : Loop) : Prop where
  drained : s.drained = true → s.task.isDue = true
  requesters : s.task.requesters + ms.count .detach = ms.count .attach + 1
  /-- There was a request for each run, and for each that is held. -/
  counted : ms.countP (·.isRun) + s.held ≤ ms.count .request
  /-- A request after which no run began is held, or stands for one that is. -/
  covered : s.task.isEnded = false → ∀ before after, ms = before ++ .request :: after →
    (∀ m ∈ after, m.isRun = false) → 0 < s.held
  /-- If there was no request since the slot was found empty, it is empty, and no run is to come but
  the one for which it was emptied. -/
  fresh : ∀ before since, ms = before ++ .drained :: since → .request ∉ since →
    s.task.pending = false ∧ (s.isScheduled = true → ∀ m ∈ since, m.isRun = false)

theorem tracks_ofInterval (interval : Nat) : Tracks [] (ofInterval interval) where
  drained h := nomatch h
  requesters := rfl
  counted := Nat.le_refl 0
  covered _ before after h := by simp at h
  fresh before since h := by simp at h

theorem counted_step? {ms : List Move} (ht : Tracks ms s) (he : Effect s s' m) :
    (ms ++ [m]).countP (·.isRun) + s'.held ≤ (ms ++ [m]).count .request := by
  have hcounted := ht.counted
  rw [List.countP_append, List.count_append]
  cases he with
  | asked _ hheld =>
    have hone : [Move.request].countP (·.isRun) = 0 ∧
        [Move.request].count .request = 1 := ⟨rfl, rfl⟩
    omega
  | @begun duration hscheduled hacts hpending =>
    have hone : [Move.act duration].countP (·.isRun) = 1 ∧
        [Move.act duration].count .request = 0 := ⟨rfl, rfl⟩
    unfold held at hcounted ⊢
    rw [hscheduled] at hcounted
    rw [hacts, hpending]
    simp only [Bool.toNat_true, Bool.toNat_false] at hcounted ⊢
    omega
  | carried hother hcarries =>
    have hheld := hcarries.held
    have hone : [m].countP (·.isRun) = 0 ∧ [m].count .request = 0 := by
      simp [hother.1, hother.2]
    omega

theorem covered_step? {ms : List Move} (ht : Tracks ms s) (he : Effect s s' m)
    (hended : s'.task.isEnded = false) {before after : List Move}
    (hms : ms ++ [m] = before ++ .request :: after) (hafter : ∀ m ∈ after, m.isRun = false) :
    0 < s'.held := by
  cases he with
  | asked hpending _ =>
    unfold held
    rw [hpending hended]
    exact Nat.lt_of_lt_of_le Nat.one_pos (Nat.le_add_right 1 _)
  | begun =>
    -- This is a run, so the request stands before it and was followed by a run.
    rcases concat_eq_append_cons hms with ⟨-, hm, -⟩ | ⟨rest, rfl, -⟩
    · cases hm
    · have hrun := hafter _ (List.mem_append_right rest (List.mem_singleton_self _))
      cases hrun
  | carried hother hcarries =>
    rcases concat_eq_append_cons hms with ⟨-, hm, -⟩ | ⟨rest, rfl, hbefore⟩
    · exact absurd hm hother.1
    · refine hcarries.kept hended ?_
      have hnot : s.task.isEnded = false := by
        rw [← Bool.not_eq_true]
        intro h
        rw [hcarries.ended h] at hended
        cases hended
      exact ht.covered hnot before rest hbefore fun m' hm' => hafter m' (by simp [hm'])

theorem fresh_step? {ms : List Move} (ht : Tracks ms s) (he : Effect s s' m)
    (hstep : s.step? m = some s') {before since : List Move}
    (hms : ms ++ [m] = before ++ .drained :: since) (hsince : .request ∉ since) :
    s'.task.pending = false ∧ (s'.isScheduled = true → ∀ m ∈ since, m.isRun = false) := by
  rcases concat_eq_append_cons hms with ⟨-, rfl, rfl⟩ | ⟨rest, rfl, hbefore⟩
  · obtain ⟨hguard, he⟩ := Option.ite_none_right_eq_some.1 hstep
    cases he
    simp only [Bool.and_eq_true, Bool.not_eq_true'] at hguard
    exact ⟨hguard.2, by simp⟩
  · simp only [List.mem_append, List.mem_singleton, not_or] at hsince
    obtain ⟨hpending, hruns⟩ := ht.fresh before rest hbefore hsince.1
    cases he with
    | asked => exact absurd rfl hsince.2
    | begun _ hacts hsame =>
      refine ⟨hsame.trans hpending, fun h => ?_⟩
      rw [hacts] at h
      cases h
    | carried hother hcarries =>
      have hslot : s'.task.pending = false := by
        rw [← Bool.not_eq_true]
        intro h
        rw [hcarries.pending h] at hpending
        cases hpending
      refine ⟨hslot, fun h m' hm' => ?_⟩
      have hscheduled : s.isScheduled = true := by
        refine (hcarries.scheduled h).resolve_right fun h => ?_
        rw [h] at hpending
        cases hpending
      rcases List.mem_append.1 hm' with hm' | hm'
      · exact hruns hscheduled m' hm'
      · rw [List.mem_singleton.1 hm']
        exact hother.2

/-- A move keeps what is known of the history. -/
theorem tracks_step {ms : List Move} (ht : Tracks ms s) (h : s.step? m = some s') :
    Tracks (ms ++ [m]) s' := by
  have heffect := effect_step? ht.drained h
  refine ⟨isDue_step? ht.drained h, ?_, counted_step? ht heffect,
    fun hended _ _ => covered_step? ht heffect hended, fun _ _ => fresh_step? ht heffect h⟩
  have hstep := requesters_step? h
  have hbefore := ht.requesters
  rw [List.count_append, List.count_append]
  simp only [List.count_singleton, beq_iff_eq]
  omega

theorem tracks_run {interval : Nat} {ms : List Move} (h : (ofInterval interval).run? ms = some s) :
    Tracks ms s := by
  induction ms using List.reverseRecOn generalizing s with
  | nil =>
    cases h
    exact tracks_ofInterval interval
  | append_singleton ms m ih =>
    rw [run?_concat] at h
    obtain ⟨s₁, hms, hm⟩ := Option.bind_eq_some_iff.1 h
    exact tracks_step (ih hms) hm

/-! ## Every history -/

theorem exists_step_of_run? {s₀ : Loop} {before after : List Move}
    (h : s₀.run? (before ++ m :: after) = some s) :
    ∃ s₁ s₂, s₀.run? before = some s₁ ∧ s₁.step? m = some s₂ := by
  rw [run?_append] at h
  obtain ⟨s₁, hbefore, h⟩ := Option.bind_eq_some_iff.1 h
  rw [run?_cons] at h
  obtain ⟨s₂, hm, -⟩ := Option.bind_eq_some_iff.1 h
  exact ⟨s₁, s₂, hbefore, hm⟩

/-- A run begins only if it was asked for, and since the slot was found empty for an earlier one. -/
theorem requested_of_act {ms : List Move} {duration : Nat} (ht : Tracks ms s)
    (h : s.step? (.act duration) = some s') : .request ∈ ms ∧
      ∀ earlier since, ms = earlier ++ .drained :: since → (∃ m ∈ since, m.isRun = true) →
        .request ∈ since := by
  obtain ⟨hdrained, -⟩ := Option.ite_none_right_eq_some.1 h
  have hscheduled := isScheduled_of_isDue (ht.drained hdrained)
  constructor
  · have hcounted := ht.counted
    unfold held at hcounted
    rw [hscheduled, Bool.toNat_true] at hcounted
    exact List.count_pos_iff.1 (by omega)
  · rintro earlier since hms ⟨m, hm, hrun⟩
    refine Decidable.byContradiction fun hnone => ?_
    rw [(ht.fresh earlier since hms hnone).2 hscheduled m hm] at hrun
    cases hrun

/-- The task ends by itself only while it is idle, without a request and without requesters. -/
theorem quiet_of_ended (h : s.step? .receive = some s') (hended : s'.task.isEnded = true) :
    s.task.isEnded = false ∧ s.held = 0 ∧ s.task.requesters = 0 := by
  obtain ⟨hidle, he⟩ := Option.ite_none_right_eq_some.1 h
  cases he
  cases hpending : s.task.pending with
  | true =>
    rw [receive_of_pending hidle hpending] at hended
    cases hended
  | false =>
    rcases Nat.eq_zero_or_pos s.task.requesters with hr | hr
    · exact ⟨by simp [isEnded, hidle], by simp [held, isScheduled, hpending, hidle], hr⟩
    · rw [receive_of_quiet hidle hpending hr] at hended
      simp [isEnded, hidle] at hended

/-- Whatever requesters and the task do, in whatever order. As long as the task has not stopped, a
request after which no run began is covered by a request in the slot or by a run that is to come. A
run begins only if there was a request since the slot was found empty for the run before, so there
are no more runs than requests. And the task ends by itself only when every requester is gone, there
is no request in the slot, and a run began after each request that there was. -/
theorem no_request_lost {interval : Nat} {ms : List Move} {s : Loop}
    (h : (ofInterval interval).run? ms = some s) :
    (s.task.isEnded = false → ∀ before after, ms = before ++ .request :: after →
      (∀ m ∈ after, m.isRun = false) → s.task.pending = true ∨ s.isScheduled = true) ∧
    (∀ before duration after, ms = before ++ .act duration :: after → .request ∈ before ∧
      ∀ earlier since, before = earlier ++ .drained :: since → (∃ m ∈ since, m.isRun = true) →
        .request ∈ since) ∧
    ms.countP (·.isRun) ≤ ms.count .request ∧
    ∀ s', s.step? .receive = some s' → s'.task.isEnded = true →
      s.task.requesters = 0 ∧ s.task.pending = false ∧
      ms.count .detach = ms.count .attach + 1 ∧
      ∀ before after, ms = before ++ .request :: after → ∃ m ∈ after, m.isRun = true := by
  have ht := tracks_run h
  refine ⟨fun hended before after hms hafter => ?_, fun before duration after hms => ?_,
    Nat.le_trans (Nat.le_add_right _ _) ht.counted, fun s' hreceive hended => ?_⟩
  · have hheld := ht.covered hended before after hms hafter
    unfold held at hheld
    refine Decidable.byContradiction fun hnone => ?_
    simp only [not_or, Bool.not_eq_true] at hnone
    rw [hnone.1, hnone.2] at hheld
    cases hheld
  · rw [hms] at h
    obtain ⟨s₁, s₂, hbefore, hact⟩ := exists_step_of_run? h
    exact requested_of_act (tracks_run hbefore) hact
  · obtain ⟨hrunning, hheld, hgone⟩ := quiet_of_ended hreceive hended
    have hrequesters := ht.requesters
    have hpending : s.task.pending = false := by
      unfold held at hheld
      exact Bool.toNat_eq_zero.1 (Nat.eq_zero_of_add_eq_zero_right hheld)
    refine ⟨hgone, hpending, by omega, fun before after hms => ?_⟩
    refine Decidable.byContradiction fun hnone => ?_
    have hlate := ht.covered hrunning before after hms fun m hm => by
      rw [← Bool.not_eq_true]
      exact fun hrun => hnone ⟨m, hm, hrun⟩
    omega

/-- Two requesters of which one makes a request while the task waits, two more while it empties the
slot and one before it acts, and is gone during the run; the other one goes after it. -/
def crowded : List Move :=
  [.attach, .request, .receive, .elapse 60, .request, .elapse 40, .request, .discard, .request,
    .discard, .drained, .request, .act 5, .detach, .elapse 5, .finish, .receive, .detach,
    .elapse 100, .drained, .act 0, .finish]

/-- The five requests make two runs, and then the task ends. -/
theorem no_request_lost_crowded : ∃ s s', (ofInterval 100).run? crowded = some s ∧
    s.step? .receive = some s' ∧ s'.task.isEnded = true ∧ s.task.pending = false ∧
    crowded.countP (·.isRun) = 2 ∧ crowded.count .request = 5 ∧
    ∀ before after, crowded = before ++ .request :: after → ∃ m ∈ after, m.isRun = true := by
  have h : (ofInterval 100).run? crowded = some ⟨⟨100, false, 0, .idle⟩, false⟩ := by decide
  obtain ⟨-, -, -, hend⟩ := no_request_lost h
  obtain ⟨-, hpending, -, hruns⟩ := hend ⟨⟨100, false, 0, .ended⟩, false⟩ rfl rfl
  exact ⟨_, _, h, rfl, rfl, hpending, by decide, by decide, hruns⟩

end HubFederation.Debounce.Loop
