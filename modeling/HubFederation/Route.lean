import HubFederation.RouteSpec
import HubFederation.Status.RouteStatus

/-!
# Route objects

A route as it is stored: its name, its namespace if it has one, what it joins, and
the status that was written last.
-/
namespace HubFederation

structure Route where
  ns : Option String
  name : String
  spec : RouteSpec
  status : Option RouteStatus
  deriving DecidableEq, Repr

namespace Route

/-- What the route is known by; a route without a namespace is not known. -/
def id? (r : Route) : Option RouteId := r.ns.map (⟨·, r.name⟩)

end Route

end HubFederation
