import HubFederation.SortedMap

/-!
# Route names

A route is known by its namespace and its name, and ordered by them.
-/
namespace HubFederation

/-- mirrors `ResourceId` -/
structure RouteId where
  ns : String
  name : String
  deriving DecidableEq, Repr

namespace RouteId

instance : Key RouteId :=
  Key.lift (fun id => (id.ns, id.name)) fun {a b} h => by
    cases a; cases b; simp_all

/-- mirrors `ResourceId.fmt` -/
def text (id : RouteId) : String := id.ns ++ "/" ++ id.name

end RouteId

end HubFederation
