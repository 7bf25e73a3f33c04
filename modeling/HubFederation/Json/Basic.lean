import HubFederation.Text.Decimal

/-!
# JSON values and their compact text

`Json` keeps the members of an object in order. Numbers that are written as
whole numbers are `num`; every other literal is kept as it was written. The
compact text has no blanks, and strings escape only what must be escaped.
-/
namespace HubFederation

inductive Json where
  | null
  | bool (b : Bool)
  | num (i : Int)
  /-- A number literal with a fraction, an exponent or a negative zero. -/
  | decimal (literal : String)
  | str (s : String)
  | arr (items : List Json)
  | obj (members : List (String × Json))
  /-- Well-formed text that stands for no value: a string with half of a surrogate
  pair, or an object with such a key. -/
  | garbled
  deriving Inhabited, Repr

namespace Json

def ofNat (n : Nat) : Json := .num n

def ofOption {α : Type} (f : α → Json) : Option α → Json
  | none => .null
  | some a => f a

def strings (ss : List String) : Json := .arr (ss.map .str)

/-- Members whose value is present, in order. -/
def present (ms : List (String × Option Json)) : Json :=
  .obj (ms.filterMap fun (k, v) => v.map (k, ·))

/-! ## Writing -/

/-- How one character stands inside a JSON string. -/
def escapedChar (c : Char) : List Char :=
  match c with
  | '"' => ['\\', '"']
  | '\\' => ['\\', '\\']
  | '\x08' => ['\\', 'b']
  | '\x0c' => ['\\', 'f']
  | '\n' => ['\\', 'n']
  | '\r' => ['\\', 'r']
  | '\t' => ['\\', 't']
  | c =>
    if c.toNat < 0x10 then ['\\', 'u', '0', '0', '0', Nat.digitChar c.toNat]
    else if c.toNat < 0x20 then ['\\', 'u', '0', '0', '1', Nat.digitChar (c.toNat - 0x10)]
    else [c]

def writeString (s : String) : List Char :=
  '"' :: s.toList.flatMap escapedChar ++ ['"']

def writeInt (i : Int) : List Char :=
  if i < 0 then '-' :: Text.digits i.natAbs else Text.digits i.natAbs

mutual

def write : Json → List Char
  | .null => ['n', 'u', 'l', 'l']
  | .bool true => ['t', 'r', 'u', 'e']
  | .bool false => ['f', 'a', 'l', 's', 'e']
  | .num i => writeInt i
  | .decimal literal => literal.toList
  | .str s => writeString s
  | .arr items => '[' :: writeItems items
  | .obj members => '\x7b' :: writeMembers members
  | .garbled => ['n', 'u', 'l', 'l']

/-- The items and the closing bracket. -/
def writeItems : List Json → List Char
  | [] => [']']
  | [j] => write j ++ [']']
  | j :: js => write j ++ ',' :: writeItems js

/-- The members and the closing brace. -/
def writeMembers : List (String × Json) → List Char
  | [] => ['\x7d']
  | [(k, v)] => writeString k ++ ':' :: write v ++ ['\x7d']
  | (k, v) :: ms => writeString k ++ ':' :: write v ++ ',' :: writeMembers ms

end

/-- The compact text of a value. -/
def compact (j : Json) : String := String.ofList (write j)

end Json

end HubFederation
