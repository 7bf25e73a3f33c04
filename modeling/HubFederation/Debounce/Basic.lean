/-!
# Debouncing requests

Any number of requests that come while an action is due make one run of it. A request
goes into a slot that holds one; the task takes it out, waits for a while, throws away
what came in the meantime and acts. A request that comes during the action is honored
by the next run.

* `request` and `detach` are what requesters do; `receive`, `start` and `finish` are
  the steps of the task, of which `start` first drains the slot and then acts.
* The task ends once every requester is gone and nothing is left in the slot.
-/
namespace HubFederation

/-- Where a debounced task stands. Waiting and acting hold the milliseconds left. -/
inductive DebouncePhase where
  | idle
  | settling (left : Nat)
  | acting (left : Nat)
  | ended
  deriving DecidableEq, Repr

/-- mirrors `Debounced` and its `Trigger`s -/
structure Debounce where
  /-- How long the task waits for further requests. -/
  interval : Nat
  /-- Whether a request is in the slot. -/
  pending : Bool
  /-- How many can still make requests. -/
  requesters : Nat
  phase : DebouncePhase
  deriving DecidableEq, Repr

namespace Debounce

/-- A task that is idle, and one requester.
mirrors `debounce.channel` -/
def ofInterval (interval : Nat) : Debounce := ⟨interval, false, 1, .idle⟩

/-- mirrors `Trigger.is_closed` -/
def isEnded (d : Debounce) : Bool := d.phase = .ended

/-- Asks for a run. Nothing happens if one is asked for already, or the task has ended.
mirrors `Trigger.trigger` -/
def request (d : Debounce) : Debounce := if d.isEnded then d else { d with pending := true }

def attach (d : Debounce) : Debounce := { d with requesters := d.requesters + 1 }

def detach (d : Debounce) : Debounce := { d with requesters := d.requesters - 1 }

/-- Takes a request out of the slot, or ends when there can be none any more.
mirrors the receive in `Debounced.next` -/
def receive (d : Debounce) : Debounce :=
  match d.phase with
  | .idle =>
    if d.pending then { d with pending := false, phase := .settling d.interval }
    else if d.requesters = 0 then { d with phase := .ended }
    else d
  | _ => d

/-- Whether the action has to start now. -/
def isDue (d : Debounce) : Bool := d.phase = .settling 0

/-- Throws away the request that is in the slot, if there is one.
mirrors one turn of the drain in `Debounced.next` -/
def drain (d : Debounce) : Debounce := { d with pending := false }

/-- Begins the action, which takes `duration`.
mirrors the start of the action in `Debounced.run` -/
def act (d : Debounce) (duration : Nat) : Debounce := { d with phase := .acting duration }

/-- Empties the slot and starts the action, if nothing comes between the two. -/
def start (d : Debounce) (duration : Nat) : Debounce :=
  match d.phase with
  | .settling 0 => d.drain.act duration
  | _ => d

/-- Ends the action once its time is over. -/
def finish (d : Debounce) : Debounce :=
  match d.phase with
  | .acting 0 => { d with phase := .idle }
  | _ => d

/-- Kills the task. -/
def abort (d : Debounce) : Debounce := { d with pending := false, phase := .ended }

/-- Lets time pass. -/
def elapse (d : Debounce) (ms : Nat) : Debounce :=
  match d.phase with
  | .settling left => { d with phase := .settling (left - ms) }
  | .acting left => { d with phase := .acting (left - ms) }
  | _ => d

/-- How long it takes until the task does something by itself. -/
def wakesIn? (d : Debounce) : Option Nat :=
  match d.phase with
  | .settling left | .acting left => some left
  | _ => none

end Debounce

end HubFederation
