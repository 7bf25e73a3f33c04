import HubFederation.SortedMap
import HubFederation.Text.Decimal

/-!
# Network ports

A port is a number from 0 to 65535. Written, it has no leading zeros; read, it
may have them, and a plus sign.

* `ofChars?_chars`: a written port is read back.
-/
namespace HubFederation

abbrev Port := UInt16

namespace Port

def chars (p : Port) : List Char := Text.digits p.toNat

def text (p : Port) : String := String.ofList p.chars

def ofChars? (cs : List Char) : Option Port :=
  (Text.readUnsigned 65535 cs).map UInt16.ofNat

theorem toNat_le (p : Port) : p.toNat ≤ 65535 := by
  have := UInt16.toNat_lt p; omega

theorem ofChars?_chars (p : Port) : ofChars? p.chars = some p := by
  simp [ofChars?, chars, Text.readUnsigned_digits (toNat_le p)]

/-- The port that a signed number is, if it is one. -/
def ofInt? (i : Int) : Option Port :=
  if 0 ≤ i ∧ i ≤ 65535 then some (UInt16.ofNat i.toNat) else none

end Port

end HubFederation
