import HubFederation.Json.Record

/-!
# Shapes of JSON values

A shape tells which values are well-formed. It stands for the parts of an object that
have to be well-formed although nobody looks at them.
-/
namespace HubFederation.Json

abbrev Shape := Json → Bool

namespace Shape

/-- The values that a reader accepts. -/
def of {α : Type} (read : Json → Option α) : Shape := fun j => (read j).isSome

def any : Shape := fun _ => true

def text : Shape := of string?

def flag : Shape := of bool?

def int32 : Shape := of int32?

def int64 : Shape := of int64?

def orNull (s : Shape) : Shape
  | .null => true
  | j => s j

def list (item : Shape) : Shape
  | .arr items => items.all item
  | _ => false

def map (value : Shape) : Shape
  | .obj members => members.all fun m => value m.2
  | _ => false

def texts : Shape := list text

/-- An object whose members keep to their shapes or are `null`. A member without a shape
may be anything. -/
def object (shapes : List (String × Shape)) : Shape
  | .obj members => members.all fun m => match shapes.lookup m.1 with
    | some s => orNull s m.2
    | none => true
  | _ => false

end Shape

end HubFederation.Json
