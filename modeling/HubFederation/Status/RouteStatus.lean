import HubFederation.Condition
import HubFederation.RouteId

/-!
# The status of a route

The published form: a phase, the way, both ends, the time of the last
synchronization and a list of conditions. Empty texts are left out when it is written.
-/
namespace HubFederation

structure RouteStatus where
  phase : String
  /-- The hubs of the way, with commas between them. -/
  way : String
  source : String
  target : String
  lastSynced : Option Timestamp
  conditions : List Condition
  deriving DecidableEq, Repr

namespace RouteStatus

/-- The JSON form, in which `time` writes a point in time. -/
def toJson (time : Timestamp → String) (s : RouteStatus) : Json :=
  let text (t : String) : Option Json := if t = "" then none else some (.str t)
  .present [("phase", text s.phase), ("way", text s.way), ("export", text s.source),
    ("import", text s.target),
    ("lastSynchronizationTimestamp", s.lastSynced.map fun t => .str (time t)),
    ("conditions", some (.arr (s.conditions.map (Condition.toJson time))))]

def ofJson? (j : Json) : Option RouteStatus := do
  let r ← Json.Record.ofJson? ["phase", "way", "export", "import", "lastSynchronizationTimestamp",
    "conditions"] j
  let text (name : String) : Option String := r.withDefault name "" Json.string?
  return {
    phase := ← text "phase"
    way := ← text "way"
    source := ← text "export"
    target := ← text "import"
    lastSynced := ← r.optional "lastSynchronizationTimestamp" Timestamp.ofJson?
    conditions := ← r.withDefault "conditions" [] (Json.list? Condition.ofJson?) }

/-- The API group and version of routes. -/
def apiVersion : String := "traffic.ferryproxy.io/v1alpha2"

/-- The merge patch that writes the status of a route.
mirrors `status.make_patch` -/
def patch (time : Timestamp → String) (name : String) (s : RouteStatus) : Json :=
  .obj [("apiVersion", .str apiVersion), ("kind", .str "Route"),
    ("name", .str name), ("status", s.toJson time)]

end RouteStatus

end HubFederation
