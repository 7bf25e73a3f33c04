import HubFederation.Text.Cut
import HubFederation.Text.Decimal

/-!
# Parameters of a query

A query is a list of names and values: `&` stands between two of them and `=` between a
name and its value. Inside of them a plus sign is a blank, and a byte may be spelled as
`%` and two hexadecimal digits.
-/
namespace HubFederation.Text

/-- The bytes that a part of a query stands for. -/
def formBytes : List UInt8 → List UInt8
  | [] => []
  | c :: rest =>
    if c = 0x2b then 0x20 :: formBytes rest
    else if c = 0x25 then
      match rest with
      | a :: b :: rest =>
        match hexValue? (Char.ofNat a.toNat), hexValue? (Char.ofNat b.toNat) with
        | some h, some l => UInt8.ofNat (16 * h + l) :: formBytes rest
        | _, _ => c :: formBytes (a :: b :: rest)
      | rest => c :: formBytes rest
    else c :: formBytes rest
termination_by cs => cs.length

/-- The text that a part of a query stands for. One that stands for no text is kept as it is. -/
def formText (cs : List Char) : String :=
  let s := String.ofList cs
  (String.fromUTF8? ⟨(formBytes s.toUTF8.toList).toArray⟩).getD s

/-- The names and values of a query. What has no `=` is left out. -/
def parameters (query : List Char) : List (String × String) :=
  (query.splitOn '&').filterMap fun part =>
    (cutFirst '=' part).map fun (name, value) => (formText name, formText value)

end HubFederation.Text
