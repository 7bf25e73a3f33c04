import HubFederation.SortedMap

/-!
# What is reported about a route

Five questions decide whether a route is ready. A finding answers one of them, with
a reason for programs and a message for people.
-/
namespace HubFederation

inductive ConditionType where
  | portsAllocated
  | exportHubReady
  | importHubReady
  | pathReachable
  | routeSynced
  deriving DecidableEq, Repr

namespace ConditionType

def rank : ConditionType → Nat
  | portsAllocated => 0
  | exportHubReady => 1
  | importHubReady => 2
  | pathReachable => 3
  | routeSynced => 4

theorem rank_injective {a b : ConditionType} (h : a.rank = b.rank) : a = b := by
  cases a <;> cases b <;> simp_all [rank]

instance : Key ConditionType := Key.lift rank rank_injective

/-- All types, in order. -/
def all : List ConditionType :=
  [portsAllocated, exportHubReady, importHubReady, pathReachable, routeSynced]

/-- mirrors `ConditionType.as_str` -/
def text : ConditionType → String
  | portsAllocated => "PortsAllocated"
  | exportHubReady => "ExportHubReady"
  | importHubReady => "ImportHubReady"
  | pathReachable => "PathReachable"
  | routeSynced => "RouteSynced"

/-- mirrors `ConditionType.from_str` -/
def ofText? (s : String) : Option ConditionType := all.find? (·.text == s)

/-- The message about a text that names no type.
mirrors the display of `UnknownCondition` -/
def unknownMessage (s : String) : String := "unknown condition type: " ++ s

theorem ofText?_text (t : ConditionType) : ofText? t.text = some t := by
  cases t <;> decide

end ConditionType

/-- The answer to one question about a route.
mirrors `RouteCondition` -/
structure Finding where
  type : ConditionType
  ready : Bool
  reason : String
  message : String
  deriving DecidableEq, Repr

namespace Finding

/-- mirrors `RouteCondition.ready` -/
def holds (type : ConditionType) (reason message : String) : Finding := ⟨type, true, reason, message⟩

/-- mirrors `RouteCondition.not_ready` -/
def fails (type : ConditionType) (reason message : String) : Finding := ⟨type, false, reason, message⟩

/-- How the answer is written in a status.
mirrors `RouteCondition.status` -/
def status (f : Finding) : String := if f.ready then "True" else "False"

end Finding

/-- Findings about one route, and the way that its tunnels take, if that is known. -/
structure Report where
  way : Option (List String)
  findings : List Finding
  deriving DecidableEq, Repr

namespace Report

def empty : Report := ⟨none, []⟩

/-- mirrors `Report.is_empty` -/
def isEmpty (r : Report) : Bool := r.way.isNone && r.findings.isEmpty

/-- mirrors `Report.way` -/
def withWay (r : Report) (way : List String) : Report := { r with way := some way }

/-- mirrors `Report.condition` -/
def add (r : Report) (f : Finding) : Report := { r with findings := r.findings ++ [f] }

end Report

end HubFederation
