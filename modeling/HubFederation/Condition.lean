import HubFederation.Timestamp

/-!
# Conditions

A condition says of an object whether something holds, since when, and why.
-/
namespace HubFederation

structure Condition where
  type : String
  status : String
  reason : String
  message : String
  lastTransition : Timestamp
  observedGeneration : Option Int
  deriving DecidableEq, Repr

namespace Condition

/-- The JSON form, in which `time` writes a point in time. -/
def toJson (time : Timestamp → String) (c : Condition) : Json :=
  .present [("lastTransitionTime", some (.str (time c.lastTransition))),
    ("message", some (.str c.message)),
    ("observedGeneration", c.observedGeneration.map .num), ("reason", some (.str c.reason)),
    ("status", some (.str c.status)), ("type", some (.str c.type))]

/-- Reads a condition, which is an object. Only its time has to be there. -/
def ofJson? (j : Json) : Option Condition := do
  let r ← Json.Record.ofObject?
    ["lastTransitionTime", "message", "observedGeneration", "reason", "status", "type"] j
  let text (name : String) : Option String := (·.getD "") <$> r.optional name Json.string?
  return {
    type := ← text "type"
    status := ← text "status"
    reason := ← text "reason"
    message := ← text "message"
    lastTransition := ← r.required "lastTransitionTime" Timestamp.ofJson?
    observedGeneration := ← r.optional "observedGeneration" Json.int64? }

end Condition

end HubFederation
