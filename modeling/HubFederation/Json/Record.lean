import HubFederation.Json.Basic
import HubFederation.SortedMap

/-!
# Decoding JSON values strictly

Nothing is converted: a text is not a number and `null` is nothing but the
absence of an optional value. A record is an object, whose unknown members are
ignored and whose known members may occur once, or an array of its members in
order, from which trailing ones may be missing.
-/
namespace HubFederation.Json

variable {α : Type}

def string? : Json → Option String
  | .str s => some s
  | _ => none

def bool? : Json → Option Bool
  | .bool b => some b
  | _ => none

def int? (lo hi : Int) : Json → Option Int
  | .num i => if lo ≤ i ∧ i ≤ hi then some i else none
  | _ => none

/-- A number of 32 bits with a sign. -/
def int32? : Json → Option Int := int? (-2147483648) 2147483647

/-- A number of 64 bits with a sign. -/
def int64? : Json → Option Int := int? (-9223372036854775808) 9223372036854775807

/-- A number from 0 to 65535. -/
def uint16? (j : Json) : Option UInt16 := (j.int? 0 65535).map fun i => UInt16.ofNat i.toNat

def list? (item : Json → Option α) : Json → Option (List α)
  | .arr items => items.mapM item
  | _ => none

/-- A map from text keys; of members with one key the last counts. -/
def map? (value : Json → Option α) : Json → Option (SortedMap String α)
  | .obj members =>
    (members.mapM fun m => (value m.2).map (m.1, ·)).map SortedMap.ofList
  | _ => none

/-- A value or `null`. -/
def nullable? (value : Json → Option α) : Json → Option (Option α)
  | .null => some none
  | j => (value j).map some

/-- The known members of a record. -/
structure Record where
  members : List (String × Json)

namespace Record

/-- An object's members that are among `names`, none of them twice. -/
def ofObject? (names : List String) : Json → Option Record
  | .obj members =>
    let known := members.filter fun m => names.contains m.1
    if (known.map (·.1)).Nodup then some ⟨known⟩ else none
  | _ => none

/-- The members called `names`, of an object or in the order of an array. -/
def ofJson? (names : List String) : Json → Option Record
  | .arr items => if items.length ≤ names.length then some ⟨names.zip items⟩ else none
  | j => ofObject? names j

def get? (r : Record) (name : String) : Option Json := r.members.lookup name

/-- A member that must be there. -/
def required (r : Record) (name : String) (value : Json → Option α) : Option α :=
  (r.get? name).bind value

/-- A member that is `d` when it is missing. -/
def withDefault (r : Record) (name : String) (d : α) (value : Json → Option α) : Option α :=
  match r.get? name with
  | some j => value j
  | none => some d

/-- A member that may be missing or `null`. -/
def optional (r : Record) (name : String) (value : Json → Option α) : Option (Option α) :=
  r.withDefault name none (nullable? value)

end Record

end HubFederation.Json
