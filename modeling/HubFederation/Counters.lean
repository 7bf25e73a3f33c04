import HubFederation.SortedMap

/-!
# Counters

What the controllers count: synchronizations per hub pair, calls per hub.
-/
namespace HubFederation

/-- mirrors `MappingMetrics` -/
structure Counters where
  syncs : SortedMap (String × String) Nat
  syncErrors : SortedMap (String × String) Nat
  applies : SortedMap String Nat
  deletes : SortedMap String Nat
  apiErrors : SortedMap String Nat
  deriving DecidableEq

namespace Counters

def empty : Counters := ⟨∅, ∅, ∅, ∅, ∅⟩

/-- One more under a key. -/
def bump {κ : Type} [Key κ] (m : SortedMap κ Nat) (k : κ) : SortedMap κ Nat :=
  m.alter k fun n => n.getD 0 + 1

/-- Starts to count for a pair.
mirrors `MappingMetrics.pair` -/
def openPair (c : Counters) (pair : String × String) : Counters :=
  { c with
    syncs := c.syncs.alter pair (·.getD 0)
    syncErrors := c.syncErrors.alter pair (·.getD 0) }

/-- mirrors `PairMetrics.sync` -/
def synced (c : Counters) (pair : String × String) : Counters :=
  { c with syncs := bump c.syncs pair }

/-- mirrors `PairMetrics.sync_error` -/
def syncFailed (c : Counters) (pair : String × String) : Counters :=
  { c with syncErrors := bump c.syncErrors pair }

/-- mirrors `PairMetrics.applied` -/
def applied (c : Counters) (hub : String) : Counters := { c with applies := bump c.applies hub }

/-- mirrors `PairMetrics.deleted` -/
def deleted (c : Counters) (hub : String) : Counters := { c with deletes := bump c.deletes hub }

/-- mirrors `PairMetrics.api_error` -/
def callFailed (c : Counters) (hub : String) : Counters :=
  { c with apiErrors := bump c.apiErrors hub }

def line (name labels : String) (n : Nat) : String :=
  name ++ "\x7b" ++ labels ++ "\x7d " ++ toString n

def pairLines (name : String) (m : SortedMap (String × String) Nat) : List String :=
  m.entries.map fun ((exporting, importing), n) =>
    line name ("export=\"" ++ exporting ++ "\",import=\"" ++ importing ++ "\"") n

def hubLines (name : String) (m : SortedMap String Nat) : List String :=
  m.entries.map fun (hub, n) => line name ("hub=\"" ++ hub ++ "\"") n

/-- Every counter as a line of text. -/
def lines (c : Counters) : List String :=
  pairLines "ferry_mapping_syncs_total" c.syncs ++
    pairLines "ferry_mapping_sync_errors_total" c.syncErrors ++
    hubLines "ferry_configmap_applies_total" c.applies ++
    hubLines "ferry_configmap_deletes_total" c.deletes ++
    hubLines "ferry_configmap_api_errors_total" c.apiErrors

end Counters

end HubFederation
