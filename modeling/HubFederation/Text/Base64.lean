/-!
# Base64

Bytes are written three at a time as four characters of six bits each. If the last group
falls short, its text is filled up with `=`, and the bits that stand for no byte are zero.
-/
namespace HubFederation.Text

/-- The six bits that a character stands for. -/
def sextet? (c : Char) : Option Nat :=
  let n := c.toNat
  if 65 ≤ n ∧ n ≤ 90 then some (n - 65)
  else if 97 ≤ n ∧ n ≤ 122 then some (n - 71)
  else if 48 ≤ n ∧ n ≤ 57 then some (n + 4)
  else if c = '+' then some 62
  else if c = '/' then some 63
  else none

/-- Whether a character stands for bits of which the last `free` are zero. -/
def isSextet (free : Nat) (c : Char) : Bool :=
  match sextet? c with
  | some n => n % Nat.pow 2 free = 0
  | none => false

/-- Whether a text is what some bytes are written as. -/
def isBase64 : List Char → Bool
  | [] => true
  | [a, b, '=', '='] => isSextet 0 a && isSextet 4 b
  | [a, b, c, '='] => isSextet 0 a && isSextet 0 b && isSextet 2 c
  | a :: b :: c :: d :: rest => [a, b, c, d].all (isSextet 0) && isBase64 rest
  | _ => false

end HubFederation.Text
