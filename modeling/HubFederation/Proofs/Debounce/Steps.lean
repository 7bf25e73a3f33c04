import HubFederation.Debounce.Basic

/-!
# The steps of a debounced task

What one step makes of a task, and which of its parts it leaves alone.
-/
namespace HubFederation.Debounce

variable {d : Debounce}

/-! ## Requests -/

@[simp] theorem interval_request (d : Debounce) : d.request.interval = d.interval := by
  unfold request
  split <;> rfl

@[simp] theorem requesters_request (d : Debounce) : d.request.requesters = d.requesters := by
  unfold request
  split <;> rfl

@[simp] theorem phase_request (d : Debounce) : d.request.phase = d.phase := by
  unfold request
  split <;> rfl

theorem request_request (d : Debounce) : d.request.request = d.request := by
  unfold request isEnded
  split
  · rfl
  · simp

theorem request_of_idle (h : d.phase = .idle) : d.request = { d with pending := true } := by
  unfold request isEnded
  simp [h]

/-! ## The task -/

theorem receive_of_pending (h : d.phase = .idle) (hp : d.pending = true) :
    d.receive = { d with pending := false, phase := .settling d.interval } := by
  unfold receive
  simp [h, hp]

/-- Without a request the task stays idle for as long as there may be one. -/
theorem receive_of_quiet (h : d.phase = .idle) (hp : d.pending = false) (hr : 0 < d.requesters) :
    d.receive = d := by
  unfold receive
  simp [h, hp, Nat.ne_of_gt hr]

/-- Without a request and without requesters the task ends. -/
theorem receive_of_gone (h : d.phase = .idle) (hp : d.pending = false) (hr : d.requesters = 0) :
    d.receive = { d with phase := .ended } := by
  unfold receive
  simp [h, hp, hr]

theorem receive_of_settling {left : Nat} (h : d.phase = .settling left) : d.receive = d := by
  unfold receive
  simp [h]

@[simp] theorem requesters_receive (d : Debounce) : d.receive.requesters = d.requesters := by
  unfold receive
  split
  · split
    · rfl
    · split <;> rfl
  · rfl

theorem start_of_due (h : d.phase = .settling 0) (duration : Nat) :
    d.start duration = d.drain.act duration := by
  unfold start
  simp [h]

@[simp] theorem requesters_start (d : Debounce) (duration : Nat) :
    (d.start duration).requesters = d.requesters := by
  unfold start
  split <;> rfl

@[simp] theorem requesters_finish (d : Debounce) : d.finish.requesters = d.requesters := by
  unfold finish
  split <;> rfl

/-- An action that takes no time is over at once. -/
theorem act_of_due (h : d.phase = .settling 0) (hr : d.requesters = 1) :
    ((d.start 0).finish).receive = { d with pending := false, phase := .idle } := by
  rw [start_of_due h]
  unfold drain act finish receive
  simp [hr]

/-! ## Time -/

theorem elapse_of_settling {left : Nat} (h : d.phase = .settling left) (ms : Nat) :
    d.elapse ms = { d with phase := .settling (left - ms) } := by
  unfold elapse
  simp [h]

theorem elapse_of_idle (h : d.phase = .idle) (ms : Nat) : d.elapse ms = d := by
  unfold elapse
  simp [h]

@[simp] theorem requesters_elapse (d : Debounce) (ms : Nat) :
    (d.elapse ms).requesters = d.requesters := by
  unfold elapse
  split <;> rfl

end HubFederation.Debounce
