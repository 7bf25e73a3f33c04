import HubFederation.ApiRequest
import HubFederation.Status.RouteStatus

/-!
# Updates on their way out

A queue of status updates with room for a fixed number. What comes when it is full is
dropped and counted; what comes after the receiver is gone is dropped silently.
-/
namespace HubFederation

/-- A status to be written.
mirrors `status.Update` -/
structure Update where
  id : RouteId
  status : RouteStatus
  deriving DecidableEq, Repr

namespace Update

/-- The merge patch to be sent, in which `time` writes a point in time. -/
def patch (time : Timestamp → String) (u : Update) : Json := u.status.patch time u.id.name

/-- The request that carries the patch, if the route can be named in one. -/
def request? (u : Update) : Option ApiRequest :=
  let routes := "/apis/" ++ RouteStatus.apiVersion ++ "/namespaces/" ++ u.id.ns ++ "/routes"
  ApiRequest.toNamed? "PATCH" routes u.id.name "/status" [ApiRequest.fieldManager]

end Update

structure Outbox where
  capacity : Nat
  /-- The updates that wait, the oldest first. -/
  queue : List Update
  /-- Whether there is a receiver. -/
  isOpen : Bool
  enqueued : Nat
  dropped : Nat
  deriving DecidableEq, Repr

namespace Outbox

/-- Whether an outbox can have this much room: some, and no more than can be counted. -/
def isCapacity (n : Nat) : Bool := 0 < n && n < Nat.pow 2 61

def ofCapacity (capacity : Nat) : Outbox := ⟨capacity, [], true, 0, 0⟩

/-- Adds an update if there is a receiver and room; tells whether it was added.
mirrors the sending in `status.Index.publish` -/
def push (o : Outbox) (u : Update) : Outbox × Bool :=
  if !o.isOpen then (o, false)
  else if o.capacity ≤ o.queue.length then ({ o with dropped := o.dropped + 1 }, false)
  else ({ o with queue := o.queue ++ [u], enqueued := o.enqueued + 1 }, true)

/-- Takes up to `n` updates out. -/
def take (o : Outbox) (n : Nat) : List Update × Outbox :=
  (o.queue.take n, { o with queue := o.queue.drop n })

/-- Drops the receiver, and with it what waits. -/
def close (o : Outbox) : Outbox := { o with queue := [], isOpen := false }

end Outbox

end HubFederation
