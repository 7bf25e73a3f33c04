import HubFederation.Debounce.Basic

/-!
# A debounced task in time

A `Timeline` runs one debounced task, and tickers that make requests at a fixed pace,
on a clock of its own. It records when each run of the action began. Only the ticker
that was started last can be stopped.

* `settle` takes all steps that take no time; each of them brings the task closer to
  waiting for something.
* `advance` goes from one event to the next until the time is over.
-/
namespace HubFederation

/-- Makes a request every `period` milliseconds. -/
structure Ticker where
  period : Nat
  /-- The milliseconds until the next request. -/
  left : Nat
  deriving DecidableEq, Repr

structure Timeline where
  task : Debounce
  /-- Whether the task has been started. -/
  started : Bool
  /-- How long the action takes. -/
  duration : Nat
  now : Nat
  /-- When each run began, the oldest first. -/
  runs : List Nat
  /-- The ticker that was started last, until it is stopped. -/
  current : Option Ticker
  /-- The tickers that were started before it. They are never stopped. -/
  earlier : List Ticker
  deriving DecidableEq, Repr

namespace Timeline

def ofInterval (interval duration : Nat) : Timeline :=
  ⟨.ofInterval interval, false, duration, 0, [], none, []⟩

/-- Every ticker that runs. -/
def tickers (t : Timeline) : List Ticker := t.current.toList ++ t.earlier

/-- Changes every ticker. -/
def mapTickers (t : Timeline) (f : Ticker → Ticker) : Timeline :=
  { t with current := t.current.map f, earlier := t.earlier.map f }

/-- How many steps without time the task is away from waiting. -/
def unsettled (d : Debounce) : Nat :=
  (if d.pending then 4 else 0) + match d.phase with
    | .settling _ => 3
    | .acting _ => 2
    | .idle => 1
    | .ended => 0

/-- One step of the task that takes no time, if there is one. -/
def step? (t : Timeline) : Option Timeline :=
  match t.task.phase with
  | .idle =>
    if t.task.pending ∨ t.task.requesters = 0 then some { t with task := t.task.receive } else none
  | .settling 0 => some { t with task := t.task.start t.duration, runs := t.runs ++ [t.now] }
  | .acting 0 => some { t with task := t.task.finish }
  | _ => none

theorem unsettled_step {t t' : Timeline} (h : t.step? = some t') :
    unsettled t'.task < unsettled t.task := by
  unfold step? at h
  split at h
  next hp =>
    split at h
    next hr =>
      cases h
      simp only [Debounce.receive, hp]
      split
      next hpend => simp [unsettled, hp, hpend]
      next hpend =>
        rw [if_pos (hr.resolve_left hpend)]
        simp [unsettled, hp]
    · cases h
  next hp =>
    cases h
    simp only [Debounce.start, Debounce.drain, Debounce.act, hp, unsettled]
    simp
  next hp =>
    cases h
    simp only [Debounce.finish, hp, unsettled]
    omega
  · cases h

/-- Takes every step that takes no time. -/
def settle (t : Timeline) : Timeline :=
  if !t.started then t
  else match _h : t.step? with
    | some t' => settle t'
    | none => t
termination_by unsettled t.task
decreasing_by exact unsettled_step _h

/-- Makes the requests of the tickers whose time has come. -/
def tick (t : Timeline) : Timeline :=
  let requests := t.tickers.any (·.left = 0)
  { t.mapTickers (fun k => if k.left = 0 then { k with left := k.period } else k) with
    task := if requests then t.task.request else t.task }

/-- Everything that happens now. -/
def poll (t : Timeline) : Timeline := t.settle.tick.settle

def startTask (t : Timeline) : Timeline := { t with started := true }

/-- Starts a ticker, which makes its first request at once. From now on the one before it
cannot be stopped. A ticker without a pace makes no requests.
mirrors `route.resync` -/
def addTicker (t : Timeline) (period : Nat) : Timeline :=
  if period = 0 then { t with current := none, earlier := t.tickers }
  else { t with task := t.task.attach, current := some ⟨period, 0⟩, earlier := t.tickers }

/-- Stops the ticker that was started last. -/
def stopTicker (t : Timeline) : Timeline :=
  if t.current.isSome then { t with task := t.task.detach, current := none } else t

/-- The time until the next event. -/
def nextEvent? (t : Timeline) : Option Nat :=
  let own := if t.started then t.task.wakesIn?.toList else []
  (own ++ t.tickers.map (·.left)).min?

/-- Lets time pass in which nothing happens. -/
def elapse (t : Timeline) (ms : Nat) : Timeline :=
  { t.mapTickers (fun k => { k with left := k.left - ms }) with
    task := if t.started then t.task.elapse ms else t.task
    now := t.now + ms }

/-- Lets `ms` milliseconds pass. -/
def advance (t : Timeline) (ms : Nat) : Timeline :=
  if _h : ms = 0 then t
  else match t.nextEvent? with
    | some wait =>
      let wait := max 1 wait
      if wait ≤ ms then advance (t.elapse wait).poll (ms - wait) else t.elapse ms
    | none => t.elapse ms
termination_by ms
decreasing_by omega

end Timeline

end HubFederation
