import HubFederation.Federation.Task
import HubFederation.RouteIndex

/-!
# The federation

Routes are grouped by the hubs that they join, and each pair of hubs has a task of its
own. Regrouping starts tasks for new pairs, hands every task its routes and closes the
tasks of pairs that have no routes left.

* `reconcile` regroups.
* `poll` does everything that is to be done at this moment; `advance` lets time pass,
  from one event to the next.
-/
namespace HubFederation

/-- mirrors `route.Controller`, with the tasks that it starts -/
structure Federation where
  world : World
  index : RouteIndex
  /-- The key that every SSH hop logs in with. -/
  identityFile : String
  /-- How long tasks wait for changes to settle. -/
  interval : Nat
  /-- Every task that was ever started; tasks are known by their place. -/
  tasks : List Task
  /-- The task of each pair that is told when services of its exporting hub change. -/
  callbacks : SortedMap (String × String) Nat
  regrouping : Debounce
  /-- The open task of each pair. -/
  mappings : SortedMap (String × String) Nat
  /-- The task of each pair that was closed last. -/
  closing : SortedMap (String × String) Nat

namespace Federation

def ofWorld (w : World) (identityFile : String) (interval : Nat) : Federation :=
  ⟨w, .empty, identityFile, interval, [], ∅, .ofInterval interval, ∅, ∅⟩

def isDone (f : Federation) (id : Nat) : Bool := (f.tasks[id]?.map (·.isDone)).getD true

def modifyTask (f : Federation) (id : Nat) (g : Task → Task) : Federation :=
  { f with tasks := f.tasks.modify id g }

/-- Starts the task of a pair, and counts for it.
mirrors `Mapping.spawn` -/
def spawn (f : Federation) (pair : String × String) (previous : Option Nat) : Federation × Nat :=
  let task := Task.ofMapping (.ofPair pair.1 pair.2 f.identityFile) f.interval previous
  ({ f with
      world := f.world.count (·.openPair pair)
      tasks := f.tasks ++ [task]
      callbacks := f.callbacks.insert pair f.tasks.length }, f.tasks.length)

/-- Closes the task of a pair.
mirrors `Mapping.close` -/
def close (f : Federation) (pair : String × String) (id : Nat) : Federation :=
  { f with callbacks := f.callbacks.erase pair }.modifyTask id Task.close

/-- mirrors `Mapping.set_routes` -/
def setRoutes (f : Federation) (id : Nat) (routes : List Route) : Federation :=
  f.modifyTask id (·.setRoutes routes)

/-- mirrors `Mapping.sync` -/
def request (f : Federation) (id : Nat) : Federation := f.modifyTask id Task.request

/-- Tells of a change of a service on a hub. -/
def serviceChanged (f : Federation) (hub : String) : Federation :=
  f.callbacks.entries.foldl (fun f (pair, id) => if pair.1 = hub then f.request id else f) f

/-! ## Routes -/

/-- Asks for a regrouping. -/
def requestRegrouping (f : Federation) : Federation := { f with regrouping := f.regrouping.request }

def afterChange (f : Federation) (c : RouteIndex.Change) : Federation :=
  let f := { f with world := c.world, index := c.index }
  if c.regroup then f.requestRegrouping else f

/-- Takes a route in: first its status, then the route itself. -/
def applyRoute (f : Federation) (r : Route) : Federation :=
  let w := { f.world with board := f.world.board.apply r }
  f.afterChange (f.index.apply w r)

def deleteRoute (f : Federation) (id : RouteId) : Federation :=
  let w := { f.world with board := f.world.board.delete id }
  f.afterChange (f.index.delete w id)

/-! ## Regrouping -/

/-- Closes the task of a pair that has no routes left.
mirrors one pair of the stale ones in `route.Controller.reconcile` -/
def closeStale (f : Federation) (e : (String × String) × Nat) : Federation :=
  { f.close e.1 e.2 with mappings := f.mappings.erase e.1, closing := f.closing.insert e.1 e.2 }

/-- The open task of a pair, started now if there is none.
mirrors the entry of a pair in `route.Controller.reconcile` -/
def openTask (f : Federation) (pair : String × String) : Federation × Nat :=
  match f.mappings.get? pair with
  | some id => (f, id)
  | none =>
    let (g, id) := { f with closing := f.closing.erase pair }.spawn pair (f.closing.get? pair)
    ({ g with mappings := g.mappings.insert pair id }, id)

/-- Hands a pair its routes.
mirrors one pair of `route.Controller.reconcile` -/
def serve (f : Federation) (e : (String × String) × List Route) : Federation :=
  let (f, id) := f.openTask e.1
  (f.setRoutes id e.2).request id

/-- Regroups the routes.
mirrors `route.Controller.reconcile` -/
def reconcile (f : Federation) : Federation :=
  let (index, world) := f.index.allocateAll f.world
  let groups := index.groups
  let f := { f with index, world, closing := f.closing.filter fun _ id => !f.isDone id }
  let stale := f.mappings.entries.filter fun (pair, _) => !groups.contains pair
  groups.entries.foldl serve (stale.foldl closeStale f)

/-! ## Time -/

/-- Regroups if the time for that has come.
mirrors `route.Controller.run` -/
def pollRegrouping (f : Federation) : Federation :=
  let f := { f with regrouping := f.regrouping.receive }
  if f.regrouping.isDue then
    reconcile { f with regrouping := ((f.regrouping.start 0).finish).receive }
  else f

/-- Lets one task do what it has to do now. -/
def pollTask (f : Federation) (id : Nat) : Federation :=
  match f.tasks[id]? with
  | none => f
  | some t =>
    let (t, world) := t.poll f.isDone f.world
    { f with world, tasks := f.tasks.set id t }

/-- Everything that is to be done at this moment. -/
def poll (f : Federation) : Federation :=
  let f := f.pollRegrouping
  (List.range f.tasks.length).foldl pollTask f

/-- The time until something happens by itself. -/
def wakesIn? (f : Federation) : Option Nat :=
  (f.regrouping.wakesIn?.toList ++ f.tasks.filterMap (·.wakesIn?)).min?

/-- Lets time pass in which nothing happens. -/
def elapse (f : Federation) (ms : Nat) : Federation :=
  { f with regrouping := f.regrouping.elapse ms, tasks := f.tasks.map (·.elapse ms) }

/-- Lets `ms` milliseconds pass. -/
def advance (f : Federation) (ms : Nat) : Federation :=
  if _h : ms = 0 then f
  else match f.wakesIn? with
    | some wait =>
      let wait := max 1 wait
      if wait ≤ ms then advance (f.elapse wait).poll (ms - wait) else f.elapse ms
    | none => f.elapse ms
termination_by ms
decreasing_by omega

/-- Lets up to `events` events happen, until a task is done. -/
def waitFor (f : Federation) (id : Nat) : Nat → Federation
  | 0 => f
  | events + 1 =>
    if f.isDone id then f
    else match f.wakesIn? with
      | some wait => waitFor (f.elapse wait).poll id events
      | none => f

end Federation

end HubFederation
