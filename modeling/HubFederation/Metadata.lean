import HubFederation.Json.Shape
import HubFederation.Labels
import HubFederation.Timestamp

/-!
# Object metadata

The part of an object in a cluster that names it. Only objects are read as such:
every member may be missing, and a missing `metadata` is an empty one. What a cluster
notes there for itself has to be well-formed, and is then set aside.
-/
namespace HubFederation

structure Metadata where
  name : Option String
  /-- The stem of a name that the cluster makes up. -/
  generateName : Option String
  ns : Option String
  labels : Option Labels
  annotations : Option Labels
  resourceVersion : Option String
  uid : Option String
  deriving DecidableEq

namespace Metadata

def empty : Metadata := ⟨none, none, none, none, none, none, none⟩

instance : Inhabited Metadata := ⟨empty⟩

/-- The name, or the stem of one that is still to be made, or nothing. -/
def anyName (m : Metadata) : String := (m.name <|> m.generateName).getD ""

def labelSet (m : Metadata) : Labels := m.labels.getD ∅

/-! ## JSON -/

def toJson (m : Metadata) : Json :=
  .present [("annotations", m.annotations.map Labels.toJson),
    ("generateName", m.generateName.map .str), ("labels", m.labels.map Labels.toJson),
    ("name", m.name.map .str), ("namespace", m.ns.map .str),
    ("resourceVersion", m.resourceVersion.map .str), ("uid", m.uid.map .str)]

/-- Who set which members of an object. -/
def managerShape : Json.Shape := .object [("apiVersion", .text), ("fieldsType", .text),
  ("fieldsV1", .any), ("manager", .text), ("operation", .text), ("subresource", .text),
  ("time", .of Timestamp.ofJson?)]

/-- An object on which another one depends. -/
def ownerShape : Json.Shape := .object [("apiVersion", .text), ("blockOwnerDeletion", .flag),
  ("controller", .flag), ("kind", .text), ("name", .text), ("uid", .text)]

/-- What is not kept. -/
def restShape : Json.Shape := .object [("creationTimestamp", .of Timestamp.ofJson?),
  ("deletionGracePeriodSeconds", .int64), ("deletionTimestamp", .of Timestamp.ofJson?),
  ("finalizers", .texts), ("generation", .int64), ("managedFields", .list managerShape),
  ("ownerReferences", .list ownerShape), ("selfLink", .text)]

def ofJson? (j : Json) : Option Metadata := do
  guard (restShape j)
  let r ← Json.Record.ofObject?
    ["name", "generateName", "namespace", "labels", "annotations", "resourceVersion", "uid"] j
  return {
    name := ← r.optional "name" Json.string?
    generateName := ← r.optional "generateName" Json.string?
    ns := ← r.optional "namespace" Json.string?
    labels := ← r.optional "labels" Labels.ofJson?
    annotations := ← r.optional "annotations" Labels.ofJson?
    resourceVersion := ← r.optional "resourceVersion" Json.string?
    uid := ← r.optional "uid" Json.string? }

/-- The metadata of an object whose version and kind, if given, are the right ones. -/
def ofObject? (kind : String) (r : Json.Record) : Option Metadata := do
  let version ← r.withDefault "apiVersion" "v1" Json.string?
  let kind' ← r.withDefault "kind" kind Json.string?
  guard (version = "v1" ∧ kind' = kind)
  return (← r.optional "metadata" ofJson?).getD empty

end Metadata

end HubFederation
