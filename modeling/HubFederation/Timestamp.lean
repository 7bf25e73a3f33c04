import HubFederation.Json.Record
import HubFederation.Text.Blank

/-!
# Points in time

A `Timestamp` counts seconds from 1970-01-01T00:00:00Z, and nanoseconds within
the second. A leap second is kept as nanoseconds beyond the 59th second. The
written form is RFC 3339 in UTC with whole seconds. The reader is more generous:
any offset, a fraction, blanks around the parts, and short numbers.

* `toDays_ofDays`: reading a day number as a date and counting it back is the identity.
-/
namespace HubFederation

structure Timestamp where
  seconds : Int
  nanos : Nat
  deriving DecidableEq, Repr, Inhabited

namespace Timestamp

/-- Later times are greater. -/
def le (a b : Timestamp) : Bool :=
  a.seconds < b.seconds || (a.seconds == b.seconds && a.nanos ≤ b.nanos)

/-- The later of two times. -/
def max (a b : Timestamp) : Timestamp := if le a b then b else a

/-! ## The calendar -/

/-- A day of the proleptic Gregorian calendar. -/
structure Date where
  year : Int
  month : Int
  day : Int
  deriving DecidableEq, Repr

/-- The year of a 400-year era that holds a day of it, if years begin in March. -/
def yearOfEra (day : Int) : Int := (day - day / 1460 + day / 36524 - day / 146096) / 365

/-- The day of the era on which a year begins. -/
def yearStart (year : Int) : Int := year * 365 + year / 4 - year / 100

/-- The month, from March on, that holds a day of the year. -/
def monthOfYear (day : Int) : Int := (5 * day + 2) / 153

/-- The day of the year on which a month begins. -/
def monthStart (month : Int) : Int := (153 * month + 2) / 5

theorem yearOfEra_bounds {day : Int} (h₀ : 0 ≤ day) (h₁ : day < 146097) :
    0 ≤ yearOfEra day ∧ yearOfEra day < 400 ∧
      0 ≤ day - yearStart (yearOfEra day) ∧ day - yearStart (yearOfEra day) ≤ 365 := by
  unfold yearStart
  have hy : yearOfEra day = (day - day / 1460 + day / 36524 - day / 146096) / 365 := rfl
  generalize yearOfEra day = y at hy ⊢
  have hc : day / 36524 = 0 ∨ day / 36524 = 1 ∨ day / 36524 = 2 ∨ day / 36524 = 3 ∨
    day / 36524 = 4 := by omega
  have hl : day / 146096 = 0 ∨ day / 146096 = 1 := by omega
  have hy' : y / 100 = 0 ∨ y / 100 = 1 ∨ y / 100 = 2 ∨ y / 100 = 3 := by omega
  rcases hc with hc | hc | hc | hc | hc <;> rcases hl with hl | hl <;>
    rw [hc, hl] at hy <;> rcases hy' with hy' | hy' | hy' | hy' <;> rw [hy'] <;> omega

theorem monthOfYear_bounds {day : Int} (h₀ : 0 ≤ day) (h₁ : day ≤ 365) :
    0 ≤ monthOfYear day ∧ monthOfYear day ≤ 11 := by
  unfold monthOfYear; omega

/-- Days from 1970-01-01; leap days end the years that begin in March. -/
def Date.toDays (d : Date) : Int :=
  let y := if d.month ≤ 2 then d.year - 1 else d.year
  y / 400 * 146097 + yearStart (y % 400) + (monthStart ((d.month + 9) % 12) + d.day - 1) - 719468

/-- The date of a day counted from 1970-01-01. -/
def Date.ofDays (days : Int) : Date :=
  let dayOfEra := (days + 719468) % 146097
  let year := yearOfEra dayOfEra
  let dayOfYear := dayOfEra - yearStart year
  let month := monthOfYear dayOfYear
  let day := dayOfYear - monthStart month + 1
  let year := year + (days + 719468) / 146097 * 400
  if month < 10 then ⟨year, month + 3, day⟩ else ⟨year + 1, month - 9, day⟩

theorem toDays_ofDays (days : Int) : (Date.ofDays days).toDays = days := by
  have hd := @yearOfEra_bounds ((days + 719468) % 146097) (by omega) (by omega)
  obtain ⟨hy0, hy1, h0, h1⟩ := hd
  have hm := monthOfYear_bounds h0 h1
  unfold Date.ofDays
  dsimp only
  generalize hdoe : (days + 719468) % 146097 = doe at *
  generalize hyr : yearOfEra doe = yr at *
  generalize hmo : monthOfYear (doe - yearStart yr) = mo at *
  split
  next h =>
    unfold Date.toDays
    dsimp only
    rw [if_neg (by omega),
      show (yr + (days + 719468) / 146097 * 400) / 400 = (days + 719468) / 146097 by omega,
      show (yr + (days + 719468) / 146097 * 400) % 400 = yr by omega,
      show (mo + 3 + 9) % 12 = mo by omega]
    omega
  next h =>
    unfold Date.toDays
    dsimp only
    rw [if_pos (by omega),
      show (yr + (days + 719468) / 146097 * 400 + 1 - 1) / 400 = (days + 719468) / 146097 by omega,
      show (yr + (days + 719468) / 146097 * 400 + 1 - 1) % 400 = yr by omega,
      show (mo - 9 + 9) % 12 = mo by omega]
    omega

def isLeapYear (y : Int) : Bool := y % 4 == 0 && (y % 100 != 0 || y % 400 == 0)

def daysInMonth (y : Int) (m : Nat) : Nat :=
  if m = 2 then if isLeapYear y then 29 else 28
  else if m = 4 ∨ m = 6 ∨ m = 9 ∨ m = 11 then 30 else 31

/-! ## Writing -/

/-- Decimal digits, filled up with zeros on the left. -/
def padded (width n : Nat) : String :=
  let ds := Text.digits n
  String.ofList (List.replicate (width - ds.length) '0' ++ ds)

/-- Four digits, or a sign and as many as it takes outside of the years 0 to 9999. -/
def yearText (y : Int) : String :=
  if 0 ≤ y ∧ y ≤ 9999 then padded 4 y.toNat
  else (if y < 0 then "-" else "+") ++ padded 4 y.natAbs

/-- RFC 3339 in UTC; a part of a second is dropped. -/
def toText (t : Timestamp) : String :=
  let date := Date.ofDays (t.seconds / 86400)
  let inDay := (t.seconds % 86400).toNat
  let second := inDay % 60 + t.nanos / 1000000000
  yearText date.year ++ "-" ++ padded 2 date.month.toNat ++ "-" ++ padded 2 date.day.toNat ++ "T" ++
    padded 2 (inDay / 3600) ++ ":" ++ padded 2 (inDay / 60 % 60) ++ ":" ++ padded 2 second ++ "Z"

/-! ## Reading -/

/-- A reader of a part of a text: the part's value and what follows. -/
abbrev Reader (α : Type) := List Char → Option (α × List Char)

def isDigit (c : Char) : Bool := (Text.digitValue? c).isSome

/-- One to `width` digits after blanks. -/
def number (width : Nat) : Reader Nat := fun cs =>
  let cs := Text.trimStart cs
  let ds := (cs.takeWhile isDigit).take width
  (Text.readDigits ds).map (·, cs.drop ds.length)

/-- A year: four digits at most, or any number of them after a sign. -/
def year : Reader Int := fun cs =>
  match Text.trimStart cs with
  | '-' :: rest => (signed rest).map fun (n, r) => (-(n : Int), r)
  | '+' :: rest => (signed rest).map fun (n, r) => ((n : Int), r)
  | cs => (number 4 cs).map fun (n, r) => ((n : Int), r)
where
  signed (cs : List Char) : Option (Nat × List Char) :=
    (Text.readDigits (cs.takeWhile isDigit)).map (·, cs.dropWhile isDigit)

/-- A literal character after blanks. -/
def mark (c : Char) : Reader Unit := fun cs =>
  match Text.trimStart cs with
  | x :: rest => if x = c then some ((), rest) else none
  | [] => none

/-- Nanoseconds from a decimal fraction; digits beyond the ninth are dropped. -/
def fraction : Reader Nat
  | '.' :: rest =>
    let ds := (rest.takeWhile isDigit).take 9
    (Text.readDigits ds).map fun n => (n * Nat.pow 10 (9 - ds.length), rest.dropWhile isDigit)
  | cs => some (0, cs)

/-- The offset from UTC in seconds. -/
def offset (cs : List Char) : Option (Int × List Char) :=
  match cs with
  | 'Z' :: rest | 'z' :: rest => some (0, rest)
  | u :: t :: c :: rest =>
    if (u = 'U' ∨ u = 'u') ∧ (t = 'T' ∨ t = 't') ∧ (c = 'C' ∨ c = 'c') then some (0, rest)
    else if u = '+' then hoursMinutes (t :: c :: rest)
    else if u = '-' ∨ u = '\u2212' then
      (hoursMinutes (t :: c :: rest)).map fun (o, r) => (-o, r)
    else none
  | _ => none
where
  hoursMinutes : List Char → Option (Int × List Char)
    | h₁ :: h₂ :: rest => do
      let h ← Text.readDigits [h₁, h₂]
      match rest.dropWhile fun c => c == ':' || Text.isBlank c with
      | m₁ :: m₂ :: rest =>
        let m ← Text.readDigits [m₁, m₂]
        if m < 60 then some (h * 3600 + m * 60, rest) else none
      | _ => none
    | _ => none

/-- Whether a day, counted from 1970-01-01, lies in the years that dates are kept for. -/
def isKept (day : Int) : Bool :=
  Date.toDays ⟨-262143, 1, 1⟩ ≤ day && day ≤ Date.toDays ⟨262142, 12, 31⟩

/-- The time that a text names, if all of it does. The date has to be kept both where the
text is from and in UTC. -/
def ofText? (s : String) : Option Timestamp := do
  let (y, cs) ← year s.toList
  let ((), cs) ← mark '-' cs
  let (mo, cs) ← number 2 cs
  let ((), cs) ← mark '-' cs
  let (d, cs) ← number 2 cs
  let cs ← match cs with
    | 'T' :: rest | 't' :: rest | ' ' :: rest => some rest
    | _ => none
  let (h, cs) ← number 2 cs
  let ((), cs) ← mark ':' cs
  let (mi, cs) ← number 2 cs
  let ((), cs) ← mark ':' cs
  let (se, cs) ← number 2 cs
  let (nanos, cs) ← fraction cs
  let (o, cs) ← offset (Text.trimStart cs)
  if Text.trimStart cs ≠ [] then none
  else if mo < 1 ∨ 12 < mo ∨ d < 1 ∨ daysInMonth y mo < d ∨ 23 < h ∨ 59 < mi ∨ 60 < se then none
  else if o ≤ -86400 ∨ 86400 ≤ o then none
  else
    let days := Date.toDays ⟨y, mo, d⟩
    let (se, nanos) := if se = 60 then (59, nanos + 1000000000) else (se, nanos)
    let seconds := days * 86400 + h * 3600 + mi * 60 + se - o
    if isKept days && isKept (seconds / 86400) then some ⟨seconds, nanos⟩ else none

def ofJson? (j : Json) : Option Timestamp := j.string?.bind ofText?

end Timestamp

end HubFederation
