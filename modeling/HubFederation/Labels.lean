import HubFederation.Json.Record
import HubFederation.Text.Quoted

/-!
# Labels

The ConfigMaps and Services that carry tunnels are found by their labels: the hub
pair that owns them, the exported service, and what a tunnel reads in them. A label
set is a map; as a selector it asks for each of its labels.

* `selects_iff`: a selector holds where all of its labels are present.
-/
namespace HubFederation

abbrev Labels := SortedMap String String

/-- What a tunnel reads in a ConfigMap.
mirrors `labels.Config` -/
inductive ConfigKind where
  | rules
  | allows
  | authorized
  | service
  deriving DecidableEq, Repr

namespace ConfigKind

/-- mirrors `labels.Config.as_str` -/
def text : ConfigKind → String
  | rules => "rules"
  | allows => "allows"
  | authorized => "authorized"
  | service => "service"

def all : List ConfigKind := [rules, allows, authorized, service]

/-- mirrors `labels.Config.from_str` -/
def ofText? (s : String) : Option ConfigKind := all.find? (·.text == s)

/-- The message about a text that names no kind.
mirrors the display of `labels.InvalidConfig` -/
def unknownMessage (s : String) : String := "unknown tunnel config kind " ++ Text.quoted s

end ConfigKind

namespace Labels

def configKey : String := "tunnel.ferryproxy.io/config"
def exportedFrom : String := "ferry.ferryproxy.io/exported-from"
def importedTo : String := "ferry.ferryproxy.io/imported-to"
def exportedFromNamespace : String := "ferry.ferryproxy.io/exported-from-namespace"
def exportedFromName : String := "ferry.ferryproxy.io/exported-from-name"
/-- The exported ports, as a list of numbers with dashes between them. -/
def exportedFromPorts : String := "ferry.ferryproxy.io/exported-from-ports"
def managedBy : String := "ferry.ferryproxy.io/managed-by"
def controllerName : String := "ferry-controller"

def empty : Labels := ∅

/-- What everything that a hub pair owns is labeled with.
mirrors `Labels.pair` -/
def pair (exporting importing : String) : Labels :=
  ((empty.insert exportedFrom exporting).insert importedTo importing).insert managedBy
    controllerName

/-- mirrors `Labels.config` -/
def withConfig (l : Labels) (kind : ConfigKind) : Labels := l.insert configKey kind.text

/-- The kind of a ConfigMap, by its labels.
mirrors `labels.config_of` -/
def configOf? (l : Labels) : Option ConfigKind := (l.get? configKey).bind ConfigKind.ofText?

/-- The labels as the text of a selector.
mirrors `Labels.selector` -/
def selector (l : Labels) : String :=
  ",".intercalate (l.entries.map fun (k, v) => k ++ "=" ++ v)

/-- Whether every label of `l` is in `labels`.
mirrors `Labels.matches` -/
def selects (l labels : Labels) : Bool := l.entries.all fun (k, v) => labels.get? k = some v

theorem selects_iff {l labels : Labels} :
    l.selects labels ↔ ∀ k v, l.get? k = some v → labels.get? k = some v := by
  unfold selects
  simp only [List.all_eq_true, decide_eq_true_eq]
  exact ⟨fun h k v hk => h (k, v) (SortedMap.mem_entries_iff.2 hk),
    fun h e he => h e.1 e.2 (SortedMap.mem_entries_iff.1 he)⟩

/-! ## JSON -/

def toJson (l : Labels) : Json := .obj (l.entries.map fun (k, v) => (k, .str v))

def ofJson? : Json → Option Labels := Json.map? Json.string?

end Labels

end HubFederation
