import HubFederation.Debounce.Basic
import HubFederation.Mapping.Sync

/-!
# The task of a hub pair

A task runs the controller of one pair: it synchronizes whenever it is asked to, but
not more often than its debouncing allows, and tears everything down once it is closed.
The successor of a closed task does nothing before that teardown is over.

* `poll` does what is to be done at this moment.
-/
namespace HubFederation

/-- Where a task stands. -/
inductive Stage where
  /-- It has not begun, and waits for the teardown of a predecessor if there is one. -/
  | starting (previous : Option Nat)
  | running
  | done
  deriving DecidableEq, Repr

/-- mirrors the task that `Mapping.spawn` starts -/
structure Task where
  mapping : Mapping
  debounce : Debounce
  /-- Whether nobody will ask for anything any more. -/
  closed : Bool
  stage : Stage
  deriving DecidableEq

namespace Task

def ofMapping (m : Mapping) (interval : Nat) (previous : Option Nat) : Task :=
  ⟨m, .ofInterval interval, false, .starting previous⟩

def isDone (t : Task) : Bool := t.stage = .done

/-- Asks for a synchronization.
mirrors `Mapping.sync` -/
def request (t : Task) : Task := { t with debounce := t.debounce.request }

/-- mirrors `Mapping.set_routes` -/
def setRoutes (t : Task) (routes : List Route) : Task :=
  { t with mapping := { t.mapping with routes } }

/-- Closes the task, which tears down instead of synchronizing again.
mirrors `Mapping.close` -/
def close (t : Task) : Task := { t with closed := true, debounce := t.debounce.request }

def elapse (t : Task) (ms : Nat) : Task :=
  if t.stage = .running then { t with debounce := t.debounce.elapse ms } else t

def wakesIn? (t : Task) : Option Nat :=
  if t.stage = .running then t.debounce.wakesIn? else none

/-- Tears down, which ends the task.
mirrors the end of `mapping.Controller.run` -/
def finish (t : Task) (w : World) : Task × World :=
  let (mapping, w) := t.mapping.teardown w
  (⟨mapping, t.debounce.abort, t.closed, .done⟩, w)

/-- Acts if the time for that has come: a closed task tears down, any other synchronizes.
mirrors one turn of `mapping.Controller.run` -/
def act (t : Task) (w : World) : Task × World :=
  if !t.debounce.isDue then (t, w)
  else if t.closed then t.finish w
  else
    let (mapping, w) := t.mapping.sync w
    ({ t with mapping, debounce := ((t.debounce.start 0).finish).receive }, w)

/-- What a running task does now.
mirrors `mapping.Controller.run` -/
def run (t : Task) (w : World) : Task × World :=
  act { t with debounce := t.debounce.receive } w

/-- What a task does now, `isDone` telling which tasks are done.
mirrors the task that `Mapping.spawn` starts -/
def poll (isDone : Nat → Bool) (t : Task) (w : World) : Task × World :=
  match t.stage with
  | .done => (t, w)
  | .running => t.run w
  | .starting previous =>
    if !(previous.map isDone).getD true then (t, w)
    else if t.closed then t.finish w
    else { t with stage := .running }.run w

end Task

end HubFederation
