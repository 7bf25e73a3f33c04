import HubFederation.Debounce.Timeline
import HubFederation.Proofs.Debounce.Moves

/-!
# Timelines make moves

What a timeline does is a history of moves of its task, with one run for each time that it writes
down. So what holds after every history holds of timelines.

* `Follows`: from one timeline to another there is such a history.
* `follows_settle`: the steps that take no time.
* `follows_addTicker`, `follows_stopTicker`: tickers, which come and go as requesters do.
* `follows_advance`: time that passes.
-/
namespace HubFederation.Timeline

open Debounce

/-- The task of `t` can come to that of `t'`, by moves with as many runs as were written down. -/
def Follows (t t' : Timeline) : Prop :=
  ∃ ms, Loop.run? ⟨t.task, false⟩ ms = some ⟨t'.task, false⟩ ∧
    t'.runs.length = t.runs.length + ms.countP (·.isRun)

variable {t t' t'' : Timeline}

theorem Follows.refl (t : Timeline) : Follows t t := ⟨[], rfl, rfl⟩

theorem Follows.trans (h : Follows t t') (h' : Follows t' t'') : Follows t t'' := by
  obtain ⟨ms, hms, hruns⟩ := h
  obtain ⟨ms', hms', hruns'⟩ := h'
  refine ⟨ms ++ ms', ?_, ?_⟩
  · rw [Loop.run?_append, hms]
    exact hms'
  · rw [List.countP_append]
    omega

/-- One move that is not a run. -/
theorem Follows.of_move (m : Move) (hm : m.isRun = false)
    (h : Loop.step? ⟨t.task, false⟩ m = some ⟨t'.task, false⟩) (hruns : t'.runs = t.runs) :
    Follows t t' := by
  refine ⟨[m], ?_, ?_⟩
  · rw [Loop.run?_cons, h]
    rfl
  · rw [hruns]
    simp [hm]

/-- A task whose time has come empties the slot and acts. -/
theorem follows_start (hdue : t.task.phase = .settling 0)
    (htask : t'.task = t.task.start t.duration) (hruns : t'.runs = t.runs ++ [t.now]) :
    Follows t t' := by
  have hisDue : t.task.isDue = true := decide_eq_true hdue
  rw [start_of_due hdue] at htask
  have hlength : t'.runs.length = t.runs.length + 1 := by
    rw [hruns, List.length_append]
    rfl
  cases hpending : t.task.pending with
  | false =>
    have hsame : t.task.drain = t.task := by
      unfold drain
      rw [← hpending]
    refine ⟨[.drained, .act t.duration], ?_, hlength⟩
    simp [Loop.run?_cons, Loop.step?, hisDue, hpending, htask, hsame]
  | true =>
    have hdrained : t.task.drain.isDue = true := hisDue
    have hempty : t.task.drain.pending = false := rfl
    refine ⟨[.discard, .drained, .act t.duration], ?_, hlength⟩
    simp [Loop.run?_cons, Loop.step?, hisDue, hpending, hdrained, hempty, htask]

theorem follows_step? (h : t.step? = some t') : Follows t t' := by
  unfold step? at h
  split at h
  next hidle =>
    obtain ⟨-, he⟩ := Option.ite_none_right_eq_some.1 h
    cases he
    exact .of_move .receive rfl (by simp [Loop.step?, hidle]) rfl
  next hdue =>
    cases h
    exact follows_start hdue rfl rfl
  next hover =>
    cases h
    exact .of_move .finish rfl (by simp [Loop.step?, hover]) rfl
  · cases h

theorem follows_settle (t : Timeline) : Follows t t.settle := by
  fun_induction settle t with
  | case1 t => exact .refl t
  | case2 t _ t' h ih => exact (follows_step? h).trans ih
  | case3 t => exact .refl t

/-! ## Tickers -/

/-- Each ticker is one of the requesters. -/
def Manned (t : Timeline) : Prop := t.tickers.length ≤ t.task.requesters

theorem requesters_step? (h : t.step? = some t') : t'.task.requesters = t.task.requesters := by
  unfold step? at h
  split at h
  · obtain ⟨-, he⟩ := Option.ite_none_right_eq_some.1 h
    cases he
    exact requesters_receive _
  · cases h
    exact requesters_start _ _
  · cases h
    exact requesters_finish _
  · cases h

theorem tickers_step? (h : t.step? = some t') : t'.tickers = t.tickers := by
  unfold step? at h
  split at h
  · obtain ⟨-, he⟩ := Option.ite_none_right_eq_some.1 h
    cases he
    rfl
  · cases h
    rfl
  · cases h
    rfl
  · cases h

theorem Manned.of_tickers (h : t.Manned) (f : Ticker → Ticker)
    (htickers : t'.tickers = t.tickers.map f)
    (hrequesters : t'.task.requesters = t.task.requesters) : t'.Manned := by
  unfold Manned at h ⊢
  rwa [hrequesters, htickers, List.length_map]

theorem tickers_mapTickers (t : Timeline) (f : Ticker → Ticker) :
    (t.mapTickers f).tickers = t.tickers.map f := by
  unfold tickers
  rw [List.map_append]
  cases h : t.current <;> simp [mapTickers, h]

theorem manned_settle (h : t.Manned) : t.settle.Manned := by
  fun_induction settle t with
  | case1 t => exact h
  | case2 t _ t' hstep ih =>
    refine ih (h.of_tickers id ?_ (requesters_step? hstep))
    rw [tickers_step? hstep, List.map_id]
  | case3 t => exact h

theorem manned_tick (h : t.Manned) : t.tick.Manned := by
  refine h.of_tickers _ (tickers_mapTickers t _) ?_
  unfold tick
  simp only
  split
  · exact requesters_request _
  · rfl

theorem follows_tick (h : t.Manned) : Follows t t.tick := by
  by_cases hdue : t.tickers.any (·.left = 0) = true
  · have hsome : 0 < t.task.requesters := by
      obtain ⟨k, hk, -⟩ := List.any_eq_true.1 hdue
      exact Nat.lt_of_lt_of_le (List.length_pos_of_mem hk) h
    exact .of_move .request rfl (by simp [Loop.step?, hsome, tick, hdue]) rfl
  · refine ⟨[], ?_, rfl⟩
    simp [tick, hdue]

theorem manned_elapse (ms : Nat) (h : t.Manned) : (t.elapse ms).Manned := by
  refine h.of_tickers _ (tickers_mapTickers t _) ?_
  unfold elapse
  simp only
  split
  · exact requesters_elapse _ ms
  · rfl

theorem follows_elapse (t : Timeline) (ms : Nat) : Follows t (t.elapse ms) := by
  by_cases hstarted : t.started = true
  · exact .of_move (.elapse ms) rfl (by simp [Loop.step?, elapse, hstarted]) rfl
  · refine ⟨[], ?_, rfl⟩
    simp [elapse, hstarted]

theorem manned_poll (h : t.Manned) : t.poll.Manned :=
  manned_settle (manned_tick (manned_settle h))

theorem follows_poll (h : t.Manned) : Follows t t.poll :=
  (follows_settle t).trans ((follows_tick (manned_settle h)).trans (follows_settle _))

/-- A ticker is a requester of its own, unless it has no pace. -/
theorem manned_addTicker (period : Nat) (h : t.Manned) : (t.addTicker period).Manned := by
  unfold Manned addTicker at *
  split
  · exact h
  · exact Nat.succ_le_succ h

theorem follows_addTicker (period : Nat) (h : 0 < t.task.requesters) :
    Follows t (t.addTicker period) := by
  unfold addTicker
  split
  · exact ⟨[], rfl, rfl⟩
  · exact .of_move .attach rfl (by simp [Loop.step?, h]) rfl

theorem manned_stopTicker (h : t.Manned) : t.stopTicker.Manned := by
  unfold Manned stopTicker tickers at *
  cases hcurrent : t.current with
  | none => simpa [hcurrent] using h
  | some k =>
    simp only [hcurrent, Option.toList_some, List.length_append, List.length_singleton] at h
    simp only [Option.isSome_some, if_true, Option.toList_none, List.nil_append, detach]
    omega

theorem follows_stopTicker (h : t.Manned) : Follows t t.stopTicker := by
  unfold stopTicker
  split
  next hsome =>
    obtain ⟨k, hk⟩ := Option.isSome_iff_exists.1 hsome
    have hrequesters : 0 < t.task.requesters := by
      refine Nat.lt_of_lt_of_le (List.length_pos_of_mem (a := k) ?_) h
      simp [tickers, hk]
    exact .of_move .detach rfl (by simp [Loop.step?, hrequesters]) rfl
  · exact .refl t

/-! ## Time -/

theorem manned_advance (h : t.Manned) (ms : Nat) : (t.advance ms).Manned := by
  fun_induction advance t ms with
  | case1 t => exact h
  | case2 t ms _ wait _ wait' _ ih => exact ih (manned_poll (manned_elapse wait' h))
  | case3 t ms => exact manned_elapse ms h
  | case4 t ms => exact manned_elapse ms h

/-- What a timeline does while time passes is a history of moves of its task. -/
theorem follows_advance (h : t.Manned) (ms : Nat) : Follows t (t.advance ms) := by
  fun_induction advance t ms with
  | case1 t => exact .refl t
  | case2 t ms _ wait _ wait' _ ih =>
    have hmanned := manned_elapse wait' h
    exact (follows_elapse t wait').trans ((follows_poll hmanned).trans (ih (manned_poll hmanned)))
  | case3 t ms => exact follows_elapse t ms
  | case4 t ms => exact follows_elapse t ms

end HubFederation.Timeline
