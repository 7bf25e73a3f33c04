/-!
# Whole numbers in decimal

`digits` writes a number in ASCII digits without leading zeros. `readDigits`
reads any non-empty run of ASCII digits, so leading zeros are accepted;
`readUnsigned` also allows one plus sign and refuses numbers above a bound.

* `readDigits_digits`: what is written is read back.
-/
namespace HubFederation.Text

/-- The digit of a number below ten. -/
def digit (n : Nat) : Char := Char.ofNat (48 + n)

/-- The value of an ASCII digit. -/
def digitValue? (c : Char) : Option Nat :=
  if 48 ≤ c.toNat ∧ c.toNat ≤ 57 then some (c.toNat - 48) else none

/-- The value of a hexadecimal digit. -/
def hexValue? (c : Char) : Option Nat :=
  let n := c.toNat
  if 48 ≤ n ∧ n ≤ 57 then some (n - 48)
  else if 97 ≤ n ∧ n ≤ 102 then some (n - 87)
  else if 65 ≤ n ∧ n ≤ 70 then some (n - 55)
  else none

/-- Decimal digits, the most significant first. -/
def digits (n : Nat) : List Char :=
  if _h : n < 10 then [digit n] else digits (n / 10) ++ [digit (n % 10)]
termination_by n
decreasing_by omega

/-- A number in decimal. -/
def decimal (n : Nat) : String := String.ofList (digits n)

/-- A number in decimal, with a minus sign when it is negative. -/
def signedDecimal (i : Int) : String :=
  if i < 0 then "-" ++ decimal i.natAbs else decimal i.natAbs

/-- The value of the digits of a text after those already read, `acc`. -/
def valueFrom (acc : Nat) : List Char → Option Nat
  | [] => some acc
  | c :: cs => (digitValue? c).bind fun d => valueFrom (10 * acc + d) cs

/-- A non-empty run of ASCII digits. -/
def readDigits : List Char → Option Nat
  | [] => none
  | cs => valueFrom 0 cs

/-- Digits with an optional plus sign before them, up to `limit`. -/
def readUnsigned (limit : Nat) (cs : List Char) : Option Nat :=
  let body := match cs with
    | '+' :: rest => rest
    | _ => cs
  (readDigits body).filter (· ≤ limit)

/-- Digits with an optional sign before them, from `lo` to `hi`. -/
def readSigned (lo hi : Int) (cs : List Char) : Option Int :=
  let value : Option Int := match cs with
    | '+' :: rest => (readDigits rest).map Int.ofNat
    | '-' :: rest => (readDigits rest).map fun n => -(Int.ofNat n)
    | _ => (readDigits cs).map Int.ofNat
  value.filter fun i => lo ≤ i ∧ i ≤ hi

theorem digitValue?_digit {n : Nat} (h : n < 10) : digitValue? (digit n) = some n := by
  have : n = 0 ∨ n = 1 ∨ n = 2 ∨ n = 3 ∨ n = 4 ∨ n = 5 ∨ n = 6 ∨ n = 7 ∨ n = 8 ∨ n = 9 := by omega
  rcases this with rfl | rfl | rfl | rfl | rfl | rfl | rfl | rfl | rfl | rfl <;> decide

theorem valueFrom_append (a : Nat) : ∀ (s t : List Char),
    valueFrom a (s ++ t) = (valueFrom a s).bind fun b => valueFrom b t
  | [], t => by simp [valueFrom]
  | c :: s, t => by
    simp only [List.cons_append, valueFrom]
    cases digitValue? c with
    | none => rfl
    | some d => exact valueFrom_append _ s t

theorem valueFrom_digits (n : Nat) : valueFrom 0 (digits n) = some n := by
  induction n using Nat.strongRecOn with
  | ind n ih =>
    unfold digits
    split
    next h => simp [valueFrom, digitValue?_digit h]
    next h =>
      rw [valueFrom_append, ih (n / 10) (by omega)]
      simp only [Option.bind_some, valueFrom, digitValue?_digit (Nat.mod_lt n (by omega : 0 < 10))]
      congr 1; omega

theorem digits_ne_nil (n : Nat) : digits n ≠ [] := by
  unfold digits; split <;> simp

theorem readDigits_digits (n : Nat) : readDigits (digits n) = some n := by
  have h := valueFrom_digits n
  unfold readDigits
  split
  next hn => exact absurd hn (digits_ne_nil n)
  · exact h

/-- Only ASCII digits are written. -/
theorem digitValue?_of_mem_digits {n : Nat} {c : Char} (h : c ∈ digits n) :
    (digitValue? c).isSome := by
  induction n using Nat.strongRecOn with
  | ind n ih =>
    unfold digits at h
    split at h
    next hn => rw [List.mem_singleton.1 h, digitValue?_digit hn]; rfl
    next hn =>
      rcases List.mem_append.1 h with h | h
      · exact ih _ (by omega) h
      · rw [List.mem_singleton.1 h, digitValue?_digit (Nat.mod_lt n (by omega : 0 < 10))]; rfl

theorem readUnsigned_digits {limit n : Nat} (h : n ≤ limit) :
    readUnsigned limit (digits n) = some n := by
  unfold readUnsigned
  split
  next rest hr =>
    have : (digitValue? '+').isSome := digitValue?_of_mem_digits (n := n) (by simp [hr])
    exact absurd this (by decide)
  · simp [readDigits_digits, h]

end HubFederation.Text
