import HubFederation.Metadata
import HubFederation.Text.Base64

/-!
# ConfigMaps

A ConfigMap is a named and labeled map of texts. What a controller renders has a
name, labels and data; a cluster that stores it adds more.

* `normalize` takes away what a cluster adds.
-/
namespace HubFederation

structure ConfigMap where
  metadata : Metadata
  data : Option (SortedMap String String)
  deriving DecidableEq

namespace ConfigMap

/-- A ConfigMap with nothing but a name, labels and data. -/
def plain (name : Option String) (labels : Option Labels) (data : Option (SortedMap String String)) :
    ConfigMap :=
  ⟨{ Metadata.empty with name, labels }, data⟩

/-- The ConfigMap of one kind that a controller renders.
mirrors `render.config_map` -/
def rendered (name : String) (labels : Labels) (data : List (String × String)) : ConfigMap :=
  plain (some name) (some labels) (some (.ofList data))

/-- The name under which the ConfigMap is kept. -/
def key (cm : ConfigMap) : String := cm.metadata.anyName

def labelSet (cm : ConfigMap) : Labels := cm.metadata.labelSet

def kind? (cm : ConfigMap) : Option ConfigKind := cm.labelSet.configOf?

def get? (cm : ConfigMap) (k : String) : Option String := cm.data.bind (·.get? k)

/-- The name, labels and data alone.
mirrors `render.normalize` -/
def normalize (cm : ConfigMap) : ConfigMap := plain cm.metadata.name cm.metadata.labels cm.data

theorem normalize_rendered (name : String) (labels : Labels) (data : List (String × String)) :
    (rendered name labels data).normalize = rendered name labels data := rfl

/-! ## JSON -/

def toJson (cm : ConfigMap) : Json :=
  .present [("apiVersion", some (.str "v1")), ("kind", some (.str "ConfigMap")),
    ("metadata", some cm.metadata.toJson), ("data", cm.data.map Labels.toJson)]

/-- What is not kept. -/
def restShape : Json.Shape := .object [("immutable", .flag),
  ("binaryData", .map (.orNull (.of fun j => j.string?.filter (Text.isBase64 ·.toList))))]

def ofJson? (j : Json) : Option ConfigMap := do
  guard (restShape j)
  let r ← Json.Record.ofObject? ["apiVersion", "kind", "metadata", "data"] j
  return ⟨← Metadata.ofObject? "ConfigMap" r, ← r.optional "data" Labels.ofJson?⟩

end ConfigMap

end HubFederation
