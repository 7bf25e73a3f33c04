import Mathlib.Algebra.Group.Nat.Defs
import HubFederation.Timestamp

/-!
# Reading a time that was written

A time is written with whole seconds, and the reader gets it back but for a part of a second,
if its date is kept. That is so for every time that was read.

* `day_ofDays`: a day number is a day of a month that has it, leap years included.
* `number_padded`, `year_yearText`: numbers and years are read back.
* `ofText?_toText`: a valid time is read back without its part of a second.
* `valid_of_ofText?`: whatever the reader accepts is valid.
-/
namespace HubFederation

namespace Text

theorem length_digits_le {n width : Nat} (hwidth : 0 < width) (h : n < 10 ^ width) :
    (digits n).length ≤ width := by
  induction width generalizing n with
  | zero => exact absurd rfl (Nat.ne_of_gt hwidth)
  | succ width ih =>
    unfold digits
    split
    · exact hwidth
    next hn =>
      have hrest : n / 10 < 10 ^ width := by
        rw [Nat.pow_succ] at h
        exact Nat.div_lt_of_lt_mul (by rwa [Nat.mul_comm])
      have hpos : 0 < width := Nat.pos_of_ne_zero fun hzero => by
        rw [hzero] at hrest
        omega
      rw [List.length_append, List.length_singleton]
      exact Nat.succ_le_succ (ih hpos hrest)

theorem valueFrom_replicate_zero (k : Nat) (cs : List Char) :
    valueFrom 0 (List.replicate k '0' ++ cs) = valueFrom 0 cs := by
  induction k with
  | zero => rfl
  | succ k ih =>
    rw [List.replicate_succ, List.cons_append, valueFrom]
    exact ih

theorem readDigits_of_ne_nil {cs : List Char} (h : cs ≠ []) : readDigits cs = valueFrom 0 cs := by
  cases cs with
  | nil => exact absurd rfl h
  | cons c cs => rfl

/-- As many digits name a number with as many digits. -/
theorem valueFrom_lt {acc n : Nat} {cs : List Char} (h : valueFrom acc cs = some n) :
    n < (acc + 1) * 10 ^ cs.length := by
  induction cs generalizing acc with
  | nil =>
    cases h
    simp
  | cons c cs ih =>
    rw [valueFrom] at h
    obtain ⟨d, hd, hn⟩ := Option.bind_eq_some_iff.1 h
    have hdigit : d < 10 := by
      unfold digitValue? at hd
      split at hd
      next hc => cases hd; omega
      · cases hd
    have hlt := ih hn
    rw [List.length_cons, Nat.pow_succ]
    calc n < (10 * acc + d + 1) * 10 ^ cs.length := hlt
      _ ≤ ((acc + 1) * 10) * 10 ^ cs.length := Nat.mul_le_mul_right _ (by omega)
      _ = (acc + 1) * (10 ^ cs.length * 10) := by rw [Nat.mul_assoc, Nat.mul_comm 10]

theorem readDigits_lt {n : Nat} {cs : List Char} (h : readDigits cs = some n) :
    n < 10 ^ cs.length := by
  cases cs with
  | nil => cases h
  | cons c cs => simpa using valueFrom_lt h

end Text

namespace Timestamp

/-! ## The calendar -/

/-- Only before the years of an era that are leap years there is a day more, if years begin in
March. -/
theorem isLeapYear_of_long_year : ∀ year < 400,
    yearOfEra (yearStart (year : Nat) + 365) = year → isLeapYear (year + 1) = true := by
  decide +kernel

/-- What is a leap year is so in every era. -/
theorem isLeapYear_add_mul (year era : Int) :
    isLeapYear (year + era * 400) = isLeapYear year := by
  have h₄ : (year + era * 400) % 4 = year % 4 := by omega
  have h₁₀₀ : (year + era * 400) % 100 = year % 100 := by omega
  have h₄₀₀ : (year + era * 400) % 400 = year % 400 := by omega
  unfold isLeapYear
  rw [h₄, h₁₀₀, h₄₀₀]

theorem isLeapYear_of_last_day {day : Int} (h₀ : 0 ≤ day) (h₁ : day < 146097)
    (h : day - yearStart (yearOfEra day) = 365) : isLeapYear (yearOfEra day + 1) = true := by
  obtain ⟨hy₀, hy₁, -, -⟩ := yearOfEra_bounds h₀ h₁
  obtain ⟨year, hyear⟩ := Int.eq_ofNat_of_zero_le hy₀
  have hday : day = yearStart year + 365 := by
    rw [hyear] at h
    omega
  rw [hyear]
  refine isLeapYear_of_long_year year (by omega) ?_
  rw [← hday]
  exact hyear

/-- A day number is a day of a month that has it. -/
theorem day_ofDays (days : Int) :
    let date := Date.ofDays days
    1 ≤ date.month ∧ date.month ≤ 12 ∧ 1 ≤ date.day ∧
      date.day ≤ daysInMonth date.year date.month.toNat := by
  have hera₀ : 0 ≤ (days + 719468) % 146097 := by omega
  have hera₁ : (days + 719468) % 146097 < 146097 := by omega
  have hleap := isLeapYear_of_last_day hera₀ hera₁
  obtain ⟨-, -, h₀, h₁⟩ := yearOfEra_bounds hera₀ hera₁
  have hm := monthOfYear_bounds h₀ h₁
  unfold Date.ofDays
  dsimp only
  generalize (days + 719468) % 146097 = dayOfEra at *
  generalize yearOfEra dayOfEra = year at *
  generalize dayOfEra - yearStart year = day at *
  have hmonth : monthOfYear day = (5 * day + 2) / 153 := rfl
  generalize monthOfYear day = month at *
  have hstart : 1 ≤ day - monthStart month + 1 := by
    unfold monthStart
    omega
  by_cases hlast : month = 11
  · -- February ends the year, and has as many days as are left.
    have hyear := isLeapYear_add_mul (year + 1) ((days + 719468) / 146097)
    rw [show year + 1 + (days + 719468) / 146097 * 400 =
      year + (days + 719468) / 146097 * 400 + 1 by omega] at hyear
    subst hlast
    rw [if_neg (by decide)]
    refine ⟨(by decide : (1 : Int) ≤ 11 - 9), (by decide : (11 - 9 : Int) ≤ 12), hstart, ?_⟩
    have hdays : daysInMonth (year + (days + 719468) / 146097 * 400 + 1) (11 - 9 : Int).toNat =
        if isLeapYear (year + 1) then 29 else 28 := by
      rw [← hyear]
      rfl
    dsimp only
    rw [hdays]
    unfold monthStart
    split
    next => omega
    next hcommon =>
      have hne : day ≠ 365 := fun he => hcommon (hleap he)
      omega
  · have hall : month = 0 ∨ month = 1 ∨ month = 2 ∨ month = 3 ∨ month = 4 ∨ month = 5 ∨ month = 6 ∨
      month = 7 ∨ month = 8 ∨ month = 9 ∨ month = 10 := by omega
    clear hleap hlast
    rcases hall with rfl | rfl | rfl | rfl | rfl | rfl | rfl | rfl | rfl | rfl | rfl <;>
      simp [daysInMonth, monthStart] at hstart ⊢ <;>
      omega

/-! ## Numbers -/

theorem toList_padded (width n : Nat) : (padded width n).toList =
    List.replicate (width - (Text.digits n).length) '0' ++ Text.digits n :=
  String.toList_ofList

theorem isDigit_iff {c : Char} : isDigit c = true ↔ 48 ≤ c.toNat ∧ c.toNat ≤ 57 := by
  unfold isDigit Text.digitValue?
  split
  next h => simp [h]
  next h => simp only [Option.isSome_none, Bool.false_eq_true, h]

theorem isBlank_of_isDigit {c : Char} (h : isDigit c = true) : Text.isBlank c = false := by
  have hc := isDigit_iff.1 h
  unfold Text.isBlank
  simp only [Bool.or_eq_false_iff, Bool.and_eq_false_iff, beq_eq_false_iff_ne,
    decide_eq_false_iff_not]
  omega

theorem isDigit_of_mem_padded {width n : Nat} {c : Char} (h : c ∈ (padded width n).toList) :
    isDigit c = true := by
  rw [toList_padded] at h
  rcases List.mem_append.1 h with h | h
  · rw [(List.mem_replicate.1 h).2]
    rfl
  · exact Text.digitValue?_of_mem_digits h

theorem readDigits_padded (width n : Nat) : Text.readDigits (padded width n).toList = some n := by
  have hne : List.replicate (width - (Text.digits n).length) '0' ++ Text.digits n ≠ [] :=
    List.append_ne_nil_of_right_ne_nil _ (Text.digits_ne_nil n)
  rw [toList_padded, Text.readDigits_of_ne_nil hne, Text.valueFrom_replicate_zero,
    Text.valueFrom_digits]

theorem length_padded {width n : Nat} (hwidth : 0 < width) (h : n < 10 ^ width) :
    (padded width n).toList.length = width := by
  rw [toList_padded, List.length_append, List.length_replicate]
  exact Nat.sub_add_cancel (Text.length_digits_le hwidth h)

/-- A padded number begins with a digit. -/
theorem exists_padded_eq_cons (width n : Nat) :
    ∃ c cs, (padded width n).toList = c :: cs ∧ isDigit c = true := by
  cases hp : (padded width n).toList with
  | nil =>
    have hread := readDigits_padded width n
    rw [hp] at hread
    cases hread
  | cons c cs => exact ⟨c, cs, rfl, isDigit_of_mem_padded (hp ▸ List.mem_cons_self ..)⟩

theorem trimStart_padded (width n : Nat) (rest : List Char) :
    Text.trimStart ((padded width n).toList ++ rest) = (padded width n).toList ++ rest := by
  obtain ⟨c, cs, hp, hc⟩ := exists_padded_eq_cons width n
  rw [hp, List.cons_append, Text.trimStart,
    List.dropWhile_cons_of_neg (by rw [isBlank_of_isDigit hc]; decide)]

/-- A number of as many digits as are read is read back, whatever follows. -/
theorem number_padded {width n : Nat} (hwidth : 0 < width) (h : n < 10 ^ width)
    (rest : List Char) : number width ((padded width n).toList ++ rest) = some (n, rest) := by
  have htake : (((padded width n).toList ++ rest).takeWhile isDigit).take width =
      (padded width n).toList := by
    rw [List.takeWhile_append_of_pos fun c hc => isDigit_of_mem_padded hc]
    exact List.take_left' (length_padded hwidth h)
  unfold number
  simp only
  rw [trimStart_padded, htake, readDigits_padded, Option.map_some, List.drop_left]

/-! ## Years -/

theorem signed_padded (width n : Nat) {c : Char} (hc : isDigit c = false) (rest : List Char) :
    year.signed ((padded width n).toList ++ c :: rest) = some (n, c :: rest) := by
  have hdigits : ∀ c ∈ (padded width n).toList, isDigit c = true :=
    fun c hc => isDigit_of_mem_padded hc
  unfold year.signed
  rw [List.takeWhile_append_of_pos hdigits, List.dropWhile_append_of_pos hdigits,
    List.takeWhile_cons_of_neg (by simp [hc]), List.dropWhile_cons_of_neg (by simp [hc]),
    List.append_nil, readDigits_padded, Option.map_some]

/-- A year is read back up to the mark after it. -/
theorem year_yearText (y : Int) {c : Char} (hc : isDigit c = false) (rest : List Char) :
    year ((yearText y).toList ++ c :: rest) = some (y, c :: rest) := by
  unfold yearText
  split
  next hy =>
    obtain ⟨d, ds, hp, hd⟩ := exists_padded_eq_cons 4 y.toNat
    have hlt : y.toNat < 10 ^ 4 := by omega
    have hnumber := number_padded (by decide : 0 < 4) hlt (c :: rest)
    have htrim := trimStart_padded 4 y.toNat (c :: rest)
    rw [hp, List.cons_append] at hnumber htrim ⊢
    unfold year
    rw [htrim]
    split
    next he => rw [(List.cons.inj he).1] at hd; cases hd
    next he => rw [(List.cons.inj he).1] at hd; cases hd
    · rw [hnumber, Option.map_some]
      simp only [Option.some.injEq, Prod.mk.injEq, and_true]
      omega
  next hy =>
    rw [String.toList_append, List.append_assoc]
    have hsigned := signed_padded 4 y.natAbs hc rest
    by_cases hneg : y < 0
    · rw [if_pos hneg]
      change (year.signed ((padded 4 y.natAbs).toList ++ c :: rest)).map
        (fun r => (-(r.1 : Int), r.2)) = _
      rw [hsigned, Option.map_some, ← Int.eq_neg_natAbs_of_nonpos (Int.le_of_lt hneg)]
    · rw [if_neg hneg]
      change (year.signed ((padded 4 y.natAbs).toList ++ c :: rest)).map
        (fun r => ((r.1 : Int), r.2)) = _
      rw [hsigned, Option.map_some, Int.natAbs_of_nonneg (by omega)]

/-! ## Points in time -/

/-- A time that can be read: its date is kept, and a leap second belongs to the last second of
a minute. -/
structure Valid (t : Timestamp) : Prop where
  kept : isKept (t.seconds / 86400) = true
  nanos : t.nanos < 2000000000
  leap : 1000000000 ≤ t.nanos → t.seconds % 60 = 59

instance (t : Timestamp) : Decidable t.Valid :=
  decidable_of_iff (isKept (t.seconds / 86400) = true ∧ t.nanos < 2000000000 ∧
    (1000000000 ≤ t.nanos → t.seconds % 60 = 59))
    ⟨fun h => ⟨h.1, h.2.1, h.2.2⟩, fun h => ⟨h.kept, h.nanos, h.leap⟩⟩

/-- A time without its part of a second. -/
def whole (t : Timestamp) : Timestamp := ⟨t.seconds, t.nanos / 1000000000 * 1000000000⟩

theorem toText_whole (t : Timestamp) : t.whole.toText = t.toText := by
  unfold toText whole
  simp only
  rw [Nat.mul_div_cancel _ (by decide)]

/-- Dropping parts of seconds keeps the order of times. -/
theorem whole_max (a b : Timestamp) : (a.max b).whole = a.whole.max b.whole := by
  unfold max
  by_cases hle : le a b = true
  · have hwhole : le a.whole b.whole = true := by
      unfold le whole at *
      simp only [Bool.or_eq_true, Bool.and_eq_true, decide_eq_true_eq, beq_iff_eq] at *
      omega
    rw [if_pos hle, if_pos hwhole]
  · rw [if_neg hle]
    split
    next hwhole =>
      -- The two differ by no more than a part of a second.
      obtain ⟨as, an⟩ := a
      obtain ⟨bs, bn⟩ := b
      unfold le whole at *
      simp only [Bool.or_eq_true, Bool.and_eq_true, decide_eq_true_eq, beq_iff_eq,
        Timestamp.mk.injEq] at *
      omega
    · rfl

theorem mark_cons {c : Char} (hc : Text.isBlank c = false) (rest : List Char) :
    mark c (c :: rest) = some ((), rest) := by
  unfold mark Text.trimStart
  rw [List.dropWhile_cons_of_neg (by rw [hc]; decide)]
  exact if_pos rfl

/-- What follows a part of a text is read after it. -/
theorem bind_read {α β : Type} {o : Option (α × List Char)} {a : α} {rest : List Char}
    (h : o = some (a, rest)) (f : α × List Char → Option β) : o.bind f = f (a, rest) := by
  rw [h, Option.bind_some]

theorem daysInMonth_le (y : Int) (m : Nat) : daysInMonth y m ≤ 31 := by
  unfold daysInMonth
  split
  · split <;> decide
  · split <;> decide

/-- A valid time is read back from its text, but for a part of a second. -/
theorem ofText?_toText {t : Timestamp} (h : t.Valid) : ofText? t.toText = some t.whole := by
  obtain ⟨hkept, hnanos, hleap⟩ := h
  obtain ⟨hmonth₁, hmonth₂, hday₁, hday₂⟩ := day_ofDays (t.seconds / 86400)
  have hback := toDays_ofDays (t.seconds / 86400)
  have hdash : "-".toList = ['-'] := rfl
  have hcolon : ":".toList = [':'] := rfl
  have hlast : "Z".toList = ['Z'] := rfl
  have htime : "T".toList = ['T'] := rfl
  unfold ofText? toText
  simp only [String.toList_append, List.append_assoc, hdash, hcolon, hlast, htime, List.cons_append,
    List.nil_append]
  generalize Date.ofDays (t.seconds / 86400) = date at *
  obtain ⟨year, month, day⟩ := date
  obtain ⟨month, rfl⟩ := Int.eq_ofNat_of_zero_le (Int.le_trans (by decide) hmonth₁)
  obtain ⟨day, rfl⟩ := Int.eq_ofNat_of_zero_le (Int.le_trans (by decide) hday₁)
  simp only [Int.toNat_natCast] at *
  have hinDay : ((t.seconds % 86400).toNat : Int) = t.seconds % 86400 :=
    Int.toNat_of_nonneg (by omega)
  generalize (t.seconds % 86400).toNat = inDay at *
  have hdays := daysInMonth_le year month
  have hnumber {n : Nat} (hn : n < 100) (rest : List Char) :
      number 2 ((padded 2 n).toList ++ rest) = some (n, rest) :=
    number_padded (by decide) hn rest
  have hfraction : fraction ['Z'] = some (0, ['Z']) := rfl
  have hoffset : offset (Text.trimStart ['Z']) = some (0, []) := rfl
  refine (bind_read (year_yearText year (by decide : isDigit '-' = false) _) _).trans ?_
  refine (bind_read (mark_cons (by decide : Text.isBlank '-' = false) _) _).trans ?_
  refine (bind_read (hnumber (by omega : month < 100) _) _).trans ?_
  refine (bind_read (mark_cons (by decide : Text.isBlank '-' = false) _) _).trans ?_
  refine (bind_read (hnumber (by omega : day < 100) _) _).trans ?_
  refine (Option.bind_some _ _).trans ?_
  refine (bind_read (hnumber (by omega : inDay / 3600 < 100) _) _).trans ?_
  refine (bind_read (mark_cons (by decide : Text.isBlank ':' = false) _) _).trans ?_
  refine (bind_read (hnumber (by omega : inDay / 60 % 60 < 100) _) _).trans ?_
  refine (bind_read (mark_cons (by decide : Text.isBlank ':' = false) _) _).trans ?_
  refine (bind_read (hnumber (by omega : inDay % 60 + t.nanos / 1000000000 < 100) _) _).trans ?_
  refine (bind_read hfraction _).trans ?_
  refine (bind_read hoffset _).trans ?_
  dsimp only
  rw [if_neg (by decide), if_neg (by omega), if_neg (by omega), hback]
  have hwhole : t.seconds / 86400 * 86400 + (inDay / 3600 : Nat) * 3600 +
      (inDay / 60 % 60 : Nat) * 60 + (inDay % 60 : Nat) - 0 = t.seconds := by omega
  by_cases hsecond : 1000000000 ≤ t.nanos
  · -- The leap second is written as the second after the 59th.
    have hsixty : inDay % 60 = 59 ∧ t.nanos / 1000000000 = 1 := by omega
    rw [hsixty.1] at hwhole ⊢
    rw [hsixty.2, if_pos rfl, hwhole, hkept]
    unfold whole
    rw [hsixty.2]
    rfl
  · have hzero : t.nanos / 1000000000 = 0 := by omega
    rw [hzero, Nat.add_zero, if_neg (by omega : inDay % 60 ≠ 60), hwhole, hkept]
    unfold whole
    rw [hzero]
    rfl

/-! ## What the reader accepts -/

/-- A fraction is less than a second. -/
theorem fraction_lt {n : Nat} {cs rest : List Char} (h : fraction cs = some (n, rest)) :
    n < 1000000000 := by
  unfold fraction at h
  split at h
  next digits =>
    obtain ⟨m, hm, heq⟩ := Option.map_eq_some_iff.1 h
    cases heq
    have hlt := Text.readDigits_lt hm
    have hlength := List.length_take_le 9 (digits.takeWhile isDigit)
    generalize ((digits.takeWhile isDigit).take 9).length = k at hlt hlength ⊢
    calc m * Nat.pow 10 (9 - k) < 10 ^ k * 10 ^ (9 - k) :=
          Nat.mul_lt_mul_of_pos_right hlt (Nat.pow_pos (by decide))
      _ = 10 ^ 9 := by rw [← Nat.pow_add, Nat.add_sub_cancel' hlength]
  · cases h
    decide

/-- An offset is a number of minutes. -/
theorem offset_hoursMinutes_dvd {o : Int} {cs rest : List Char}
    (h : offset.hoursMinutes cs = some (o, rest)) : o % 60 = 0 := by
  unfold offset.hoursMinutes at h
  split at h
  · obtain ⟨hours, -, h⟩ := Option.bind_eq_some_iff.1 h
    split at h
    · obtain ⟨minutes, -, h⟩ := Option.bind_eq_some_iff.1 h
      split at h
      · cases h
        omega
      · cases h
    · cases h
  · cases h

theorem offset_dvd {o : Int} {cs rest : List Char} (h : offset cs = some (o, rest)) :
    o % 60 = 0 := by
  unfold offset at h
  split at h
  · cases h
    rfl
  · cases h
    rfl
  · split at h
    · cases h
      rfl
    split at h
    · exact offset_hoursMinutes_dvd h
    split at h
    · obtain ⟨e, he, heq⟩ := Option.map_eq_some_iff.1 h
      cases heq
      have hdvd := offset_hoursMinutes_dvd he
      omega
    · cases h
  · cases h

/-- Whatever time is read, it is valid. -/
theorem valid_of_ofText? {s : String} {t : Timestamp} (h : ofText? s = some t) : t.Valid := by
  unfold ofText? at h
  obtain ⟨⟨y, cs⟩, -, h⟩ := Option.bind_eq_some_iff.1 h
  obtain ⟨⟨_, cs⟩, -, h⟩ := Option.bind_eq_some_iff.1 h
  obtain ⟨⟨mo, cs⟩, -, h⟩ := Option.bind_eq_some_iff.1 h
  obtain ⟨⟨_, cs⟩, -, h⟩ := Option.bind_eq_some_iff.1 h
  obtain ⟨⟨d, cs⟩, -, h⟩ := Option.bind_eq_some_iff.1 h
  simp only at h
  -- Any of three marks may stand before the time of day.
  split at h
  case h_4 => cases h
  all_goals
    obtain ⟨cs, -, h⟩ := Option.bind_eq_some_iff.1 h
    obtain ⟨⟨hour, cs⟩, -, h⟩ := Option.bind_eq_some_iff.1 h
    obtain ⟨⟨_, cs⟩, -, h⟩ := Option.bind_eq_some_iff.1 h
    obtain ⟨⟨minute, cs⟩, -, h⟩ := Option.bind_eq_some_iff.1 h
    obtain ⟨⟨_, cs⟩, -, h⟩ := Option.bind_eq_some_iff.1 h
    obtain ⟨⟨second, cs⟩, -, h⟩ := Option.bind_eq_some_iff.1 h
    obtain ⟨⟨nanos, cs⟩, hnanos, h⟩ := Option.bind_eq_some_iff.1 h
    obtain ⟨⟨o, cs⟩, ho, h⟩ := Option.bind_eq_some_iff.1 h
    have hpart := fraction_lt hnanos
    have hminutes := offset_dvd ho
    simp only [Option.ite_none_left_eq_some, Option.ite_none_right_eq_some, Bool.and_eq_true] at h
    obtain ⟨-, -, -, ⟨-, hkept⟩, h⟩ := h
    cases h
    refine ⟨hkept, ?_, ?_⟩
    · simp only
      split <;> simp only <;> omega
    · simp only
      split <;> simp only <;> omega

end Timestamp

end HubFederation
