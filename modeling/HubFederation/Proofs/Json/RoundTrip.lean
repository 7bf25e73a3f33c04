import HubFederation.Json.Reader
import HubFederation.Json.Record

/-!
# Reading what was written

The reader gets back every value from its compact text, if the value has no number that is kept
as a literal and no garbled part.

* `readText_writeString`: a string is read back, whatever characters it has.
* `readNumber_writeInt`: a whole number is read back, if no text follows that would belong to it.
* `parse?_compact`: a value is read back. No more fuel is needed than the text is long.
* `list?_map_iff`: a list is decoded item by item.
-/
namespace HubFederation.Json

/-! ## Strings -/

theorem readPieces_plain {c : Char} (hq : c ≠ '"') (hb : c ≠ '\\') (hc : 0x20 ≤ c.toNat)
    (rest : List Char) :
    readPieces (c :: rest) = (readPieces rest).map fun r => (.char c :: r.1, r.2) := by
  have hplain : (c == '\\' || decide (c.toNat < 0x20)) = false := by
    simp only [Bool.or_eq_false_iff, beq_eq_false_iff_ne, decide_eq_false_iff_not]
    exact ⟨hb, by omega⟩
  rw [readPieces]
  · simp only [hplain, Bool.false_eq_true, if_false]
    rw [Option.map_eq_bind]
    rfl
  all_goals simp_all

theorem readPieces_short {e c : Char} (h : escape? e = some c) (hu : e ≠ 'u') (rest : List Char) :
    readPieces ('\\' :: e :: rest) = (readPieces rest).map fun r => (.char c :: r.1, r.2) := by
  rw [readPieces]
  · rw [h, Option.map_eq_bind]
    rfl
  · exact fun a b c' d rest' he => absurd he hu

theorem readPieces_unit {a b c d : Char} {n : Nat} (h : hexUnit? a b c d = some n)
    (rest : List Char) :
    readPieces ('\\' :: 'u' :: a :: b :: c :: d :: rest) =
      (readPieces rest).map fun r => (.unit n :: r.1, r.2) := by
  rw [readPieces, h, Option.map_eq_bind]
  rfl

theorem hexUnit?_digitChar : ∀ n < 0x10,
    hexUnit? '0' '0' '0' (Nat.digitChar n) = some n ∧
      hexUnit? '0' '0' '1' (Nat.digitChar n) = some (n + 0x10) := by decide

/-- An escaped character is read as one piece, which stands for the character. -/
theorem readPieces_escapedChar (c : Char) : ∃ p : Piece,
    (∀ ps, decodePieces (p :: ps) = (decodePieces ps).map (c :: ·)) ∧
      ∀ rest, readPieces (escapedChar c ++ rest) =
        (readPieces rest).map fun r => (p :: r.1, r.2) := by
  have hshort (e c : Char) (h : escape? e = some c) (hu : e ≠ 'u') : ∃ p : Piece,
      (∀ ps, decodePieces (p :: ps) = (decodePieces ps).map (c :: ·)) ∧
        ∀ rest, readPieces (['\\', e] ++ rest) =
          (readPieces rest).map fun r => (p :: r.1, r.2) :=
    ⟨.char c, fun _ => rfl, readPieces_short h hu⟩
  have hunit (a b : Char) (h : hexUnit? '0' '0' a b = some c.toNat) (hc : c.toNat < 0x20) :
      ∃ p : Piece, (∀ ps, decodePieces (p :: ps) = (decodePieces ps).map (c :: ·)) ∧
        ∀ rest, readPieces (['\\', 'u', '0', '0', a, b] ++ rest) =
          (readPieces rest).map fun r => (p :: r.1, r.2) := by
    refine ⟨.unit c.toNat, fun ps => ?_, readPieces_unit h⟩
    rw [decodePieces.eq_def]
    simp only
    rw [if_pos (.inl (by omega)), Char.ofNat_toNat]
  unfold escapedChar
  split
  · exact hshort '"' '"' rfl (by decide)
  · exact hshort '\\' '\\' rfl (by decide)
  · exact hshort 'b' '\x08' rfl (by decide)
  · exact hshort 'f' '\x0c' rfl (by decide)
  · exact hshort 'n' '\n' rfl (by decide)
  · exact hshort 'r' '\r' rfl (by decide)
  · exact hshort 't' '\t' rfl (by decide)
  next hq hb _ _ _ _ _ =>
    split
    next hlow => exact hunit '0' _ (hexUnit?_digitChar c.toNat hlow).1 (by omega)
    next hlow =>
      split
      next hhigh =>
        have hdigit := (hexUnit?_digitChar (c.toNat - 0x10) (by omega)).2
        rw [Nat.sub_add_cancel (by omega)] at hdigit
        exact hunit '1' _ hdigit hhigh
      next hhigh =>
        exact ⟨.char c, fun _ => rfl, readPieces_plain (fun h => hq h) (fun h => hb h) (by omega)⟩

/-- A string is read back up to its closing quote. -/
theorem readText_writeString (s : String) (rest : List Char) :
    readText (s.toList.flatMap escapedChar ++ '"' :: rest) = some (some s, rest) := by
  have hpieces : ∀ cs : List Char, ∃ ps, decodePieces ps = some cs ∧
      readPieces (cs.flatMap escapedChar ++ '"' :: rest) = some (ps, rest) := by
    intro cs
    induction cs with
    | nil => exact ⟨[], rfl, rfl⟩
    | cons c cs ih =>
      obtain ⟨ps, hdecode, hread⟩ := ih
      obtain ⟨p, hp, hc⟩ := readPieces_escapedChar c
      refine ⟨p :: ps, by rw [hp, hdecode]; rfl, ?_⟩
      rw [List.flatMap_cons, List.append_assoc, hc, hread]
      rfl
  obtain ⟨ps, hdecode, hread⟩ := hpieces s.toList
  unfold readText
  rw [hread, Option.map_some]
  simp only [hdecode, Option.map_some, String.ofList_toList]

/-! ## Numbers -/

/-- What may follow a value: nothing, or a mark that ends it. -/
def Ended (rest : List Char) : Prop := ∀ c ∈ rest.head?, c = ',' ∨ c = ']' ∨ c = '\x7d'

theorem ended_nil : Ended [] := fun _ h => (nomatch h)

theorem ended_cons {c : Char} (h : c = ',' ∨ c = ']' ∨ c = '\x7d') (rest : List Char) :
    Ended (c :: rest) := fun c' hc' => by
  cases Option.some.inj hc'
  exact h

theorem isDigit_of_mem_digits {n : Nat} {c : Char} (h : c ∈ Text.digits n) : isDigit c = true := by
  have hvalue := Text.digitValue?_of_mem_digits h
  unfold Text.digitValue? at hvalue
  split at hvalue
  next hc => simpa [isDigit] using hc
  · cases hvalue

theorem takeDigits_digits (n : Nat) {rest : List Char} (h : Ended rest) :
    takeDigits (Text.digits n ++ rest) = some (Text.digits n, rest) := by
  have hdigits : ∀ c ∈ Text.digits n, isDigit c = true := fun c hc => isDigit_of_mem_digits hc
  have hnot : ∀ c ∈ rest.head?, isDigit c = false := by
    intro c hc
    rcases h c hc with rfl | rfl | rfl <;> decide
  have htake : rest.takeWhile isDigit = [] ∧ rest.dropWhile isDigit = rest := by
    cases rest with
    | nil => exact ⟨rfl, rfl⟩
    | cons c cs =>
      have hc := hnot c rfl
      exact ⟨List.takeWhile_cons_of_neg (by simp [hc]), List.dropWhile_cons_of_neg (by simp [hc])⟩
  unfold takeDigits
  rw [List.takeWhile_append_of_pos hdigits, List.dropWhile_append_of_pos hdigits, htake.1, htake.2,
    List.append_nil]
  split
  next hnil => exact absurd hnil (Text.digits_ne_nil n)
  · rfl

/-- Only zero is written with a zero at its head. -/
theorem head?_digits {n : Nat} (h : n ≠ 0) : (Text.digits n).head? ≠ some '0' := by
  induction n using Nat.strongRecOn with
  | ind n ih =>
    unfold Text.digits
    split
    next hn =>
      have : n = 1 ∨ n = 2 ∨ n = 3 ∨ n = 4 ∨ n = 5 ∨ n = 6 ∨ n = 7 ∨ n = 8 ∨ n = 9 := by omega
      rcases this with rfl | rfl | rfl | rfl | rfl | rfl | rfl | rfl | rfl <;> decide
    next hn =>
      have hfront := ih (n / 10) (by omega) (by omega)
      cases hd : Text.digits (n / 10) with
      | nil => exact absurd hd (Text.digits_ne_nil _)
      | cons c cs =>
        rw [hd] at hfront
        exact hfront

theorem takeWhole_digits (n : Nat) {rest : List Char} (h : Ended rest) :
    takeWhole (Text.digits n ++ rest) = some (Text.digits n, rest) := by
  by_cases hn : n = 0
  · subst hn
    have hzero : Text.digits 0 = ['0'] := by
      unfold Text.digits
      rfl
    rw [hzero]
    rfl
  · have hhead := head?_digits hn
    have htake := takeDigits_digits n h
    cases hd : Text.digits n with
    | nil => exact absurd hd (Text.digits_ne_nil n)
    | cons c cs =>
      rw [hd] at hhead htake
      rw [List.cons_append, takeWhole]
      · exact htake
      · exact fun _ hc => hhead (by rw [List.head?_cons, (List.cons.inj hc).1])

theorem takeFraction_ended {rest : List Char} (h : Ended rest) :
    takeFraction rest = some ([], rest) := by
  cases rest with
  | nil => rfl
  | cons c cs =>
    rcases h c rfl with rfl | rfl | rfl <;> rfl

theorem takeExponent_ended {rest : List Char} (h : Ended rest) :
    takeExponent rest = some ([], rest) := by
  cases rest with
  | nil => rfl
  | cons c cs =>
    rcases h c rfl with rfl | rfl | rfl <;> rfl

/-- A whole number is read back. -/
theorem readNumber_writeInt (i : Int) {rest : List Char} (h : Ended rest) :
    readNumber (writeInt i ++ rest) = some (.num i, rest) := by
  have hvalue : Text.readDigits (Text.digits i.natAbs) = some i.natAbs :=
    Text.readDigits_digits i.natAbs
  unfold writeInt
  by_cases hi : i < 0
  · have hzero : i.natAbs ≠ 0 := by omega
    have hneg : -(i.natAbs : Int) = i := by omega
    rw [if_pos hi]
    unfold readNumber
    simp only [List.cons_append, takeWhole_digits i.natAbs h, takeFraction_ended h,
      takeExponent_ended h, Option.bind_eq_bind, Option.bind_some, wholeNumber?, hvalue, if_true,
      if_neg hzero, hneg, and_self, Option.pure_def]
  · have hsame : (i.natAbs : Int) = i := by omega
    rw [if_neg hi]
    have hhead : ∀ cs, Text.digits i.natAbs ++ rest ≠ '-' :: cs := by
      intro cs he
      cases hd : Text.digits i.natAbs with
      | nil => exact Text.digits_ne_nil _ hd
      | cons c ds =>
        rw [hd, List.cons_append] at he
        have hdigit := isDigit_of_mem_digits (hd ▸ List.mem_cons_self ..)
        rw [(List.cons.inj he).1] at hdigit
        cases hdigit
    unfold readNumber
    simp only [takeWhole_digits i.natAbs h, takeFraction_ended h, takeExponent_ended h,
      Option.bind_eq_bind, Option.bind_some, wholeNumber?, hvalue, Bool.false_eq_true, if_false,
      hsame, and_self, if_true, Option.pure_def]

/-! ## Values -/

/-- A value without numbers that are kept as literals, and without garbled parts. -/
inductive Plain : Json → Prop where
  | null : Plain .null
  | bool (b : Bool) : Plain (.bool b)
  | num (i : Int) : Plain (.num i)
  | str (s : String) : Plain (.str s)
  | arr {items : List Json} (h : ∀ j ∈ items, Plain j) : Plain (.arr items)
  | obj {members : List (String × Json)} (h : ∀ m ∈ members, Plain m.2) : Plain (.obj members)

theorem skipSpace_cons {c : Char} (h : isSpace c = false) (cs : List Char) :
    skipSpace (c :: cs) = c :: cs :=
  List.dropWhile_cons_of_neg (by simp [h])

/-- A value begins with a character that is no blank and no closing mark. -/
theorem exists_write_eq_cons {j : Json} (h : Plain j) :
    ∃ c cs, write j = c :: cs ∧ isSpace c = false ∧ c ≠ ']' ∧ c ≠ '\x7d' := by
  have hdigits (n : Nat) : ∃ c cs, Text.digits n = c :: cs ∧ isSpace c = false ∧ c ≠ ']' ∧
      c ≠ '\x7d' := by
    cases hd : Text.digits n with
    | nil => exact absurd hd (Text.digits_ne_nil n)
    | cons c cs =>
      have hdigit := isDigit_of_mem_digits (hd ▸ List.mem_cons_self ..)
      refine ⟨c, cs, rfl, ?_, ?_, ?_⟩
      · refine Bool.eq_false_iff.2 fun hspace => ?_
        simp only [isSpace, Bool.or_eq_true, beq_iff_eq] at hspace
        rcases hspace with ((rfl | rfl) | rfl) | rfl <;> cases hdigit
      · rintro rfl; cases hdigit
      · rintro rfl; cases hdigit
  cases h with
  | null => exact ⟨'n', ['u', 'l', 'l'], by rw [write], by decide, by decide, by decide⟩
  | bool b =>
    cases b with
    | true => exact ⟨'t', ['r', 'u', 'e'], by rw [write], by decide, by decide, by decide⟩
    | false => exact ⟨'f', ['a', 'l', 's', 'e'], by rw [write], by decide, by decide, by decide⟩
  | num i =>
    rw [write, writeInt]
    split
    · exact ⟨'-', _, rfl, by decide, by decide, by decide⟩
    · exact hdigits i.natAbs
  | str s => exact ⟨'"', _, by rw [write, writeString, List.cons_append], by decide, by decide,
      by decide⟩
  | @arr items _ => exact ⟨'[', writeItems items, by rw [write], by decide, by decide, by decide⟩
  | @obj members _ =>
    exact ⟨'\x7b', writeMembers members, by rw [write], by decide, by decide, by decide⟩

/-- A value is read back from the head of a text, with fuel for as many characters as it has. -/
def ReadsBack (j : Json) : Prop :=
  ∀ fuel rest, (write j).length ≤ fuel → Ended rest →
    readValue fuel (write j ++ rest) = some (j, rest)

theorem writeItems_cons_cons (j k : Json) (ks : List Json) :
    writeItems (j :: k :: ks) = write j ++ ',' :: writeItems (k :: ks) := by
  rw [writeItems]
  exact fun h => nomatch h

theorem exists_writeItems_eq_cons {k : Json} (h : Plain k) (ks : List Json) :
    ∃ c cs, writeItems (k :: ks) = c :: cs ∧ isSpace c = false ∧ c ≠ ']' := by
  obtain ⟨c, cs, hhead, hc, hclose, -⟩ := exists_write_eq_cons h
  cases ks with
  | nil => exact ⟨c, _, by rw [writeItems, hhead]; rfl, hc, hclose⟩
  | cons l ls => exact ⟨c, _, by rw [writeItems_cons_cons, hhead]; rfl, hc, hclose⟩

/-- Items are read back up to the closing bracket. -/
theorem readItems_writeItems {items : List Json} (hne : items ≠ [])
    (h : ∀ j ∈ items, Plain j ∧ ReadsBack j) (fuel : Nat) (rest : List Char)
    (hfuel : (writeItems items).length ≤ fuel) :
    readItems fuel (writeItems items ++ rest) = some (items, rest) := by
  induction items generalizing fuel with
  | nil => exact absurd rfl hne
  | cons j js ih =>
    have hj := (h j (List.mem_cons_self ..)).2
    cases js with
    | nil =>
      rw [writeItems] at hfuel ⊢
      simp only [List.length_append, List.length_cons, List.length_nil] at hfuel
      obtain ⟨fuel, rfl⟩ : ∃ n, fuel = n + 1 := ⟨fuel - 1, by omega⟩
      have hread := hj fuel (']' :: rest) (by omega) (ended_cons (.inr (.inl rfl)) rest)
      have hspace : skipSpace (']' :: rest) = ']' :: rest := skipSpace_cons (by decide) rest
      rw [List.append_assoc, List.cons_append, List.nil_append, readItems, hread]
      simp only [Option.bind_eq_bind, Option.bind_some, hspace, Option.pure_def]
    | cons k ks =>
      rw [writeItems_cons_cons] at hfuel ⊢
      simp only [List.length_append, List.length_cons] at hfuel
      obtain ⟨fuel, rfl⟩ : ∃ n, fuel = n + 1 := ⟨fuel - 1, by omega⟩
      have hspace : skipSpace (writeItems (k :: ks) ++ rest) = writeItems (k :: ks) ++ rest := by
        obtain ⟨c, cs, hhead, hc, -⟩ := exists_writeItems_eq_cons (h k (by simp)).1 ks
        rw [hhead, List.cons_append, skipSpace_cons hc]
      have hread := hj fuel (',' :: (writeItems (k :: ks) ++ rest)) (by omega)
        (ended_cons (.inl rfl) _)
      have hcomma : skipSpace (',' :: (writeItems (k :: ks) ++ rest)) =
        ',' :: (writeItems (k :: ks) ++ rest) := skipSpace_cons (by decide) _
      have hrest := ih (by simp) (fun j' hj' => h j' (List.mem_cons_of_mem _ hj')) fuel (by omega)
      rw [List.append_assoc, List.cons_append, readItems, hread]
      simp only [Option.bind_eq_bind, Option.bind_some, hcomma, hspace, hrest, Option.pure_def]

theorem writeMembers_cons_cons (k : String) (v : Json) (m : String × Json)
    (ms : List (String × Json)) :
    writeMembers ((k, v) :: m :: ms) = writeString k ++ ':' :: write v ++ ',' :: writeMembers (m :: ms) := by
  rw [writeMembers]
  exact fun h => nomatch h

/-- Members begin with the quote of a key. -/
theorem exists_writeMembers_eq_cons (m : String × Json) (ms : List (String × Json)) :
    ∃ cs, writeMembers (m :: ms) = '"' :: cs := by
  cases ms with
  | nil => exact ⟨_, by rw [writeMembers, writeString]; rfl⟩
  | cons n ns => exact ⟨_, by rw [writeMembers_cons_cons, writeString]; rfl⟩

/-- Members are read back up to the closing brace. -/
theorem readMembers_writeMembers {members : List (String × Json)} (hne : members ≠ [])
    (h : ∀ m ∈ members, Plain m.2 ∧ ReadsBack m.2) (fuel : Nat) (rest : List Char)
    (hfuel : (writeMembers members).length ≤ fuel) :
    readMembers fuel (writeMembers members ++ rest) =
      some (members.map fun m => (some m.1, m.2), rest) := by
  induction members generalizing fuel with
  | nil => exact absurd rfl hne
  | cons m ms ih =>
    obtain ⟨key, v⟩ := m
    have hv : ReadsBack v := (h (key, v) (List.mem_cons_self ..)).2
    obtain ⟨c, cs, hhead, hc, -, -⟩ := exists_write_eq_cons (h (key, v) (List.mem_cons_self ..)).1
    have hspace (tail : List Char) : skipSpace (write v ++ tail) = write v ++ tail := by
      rw [hhead, List.cons_append, skipSpace_cons hc]
    have hcolon (tail : List Char) : skipSpace (':' :: tail) = ':' :: tail :=
      skipSpace_cons (by decide) tail
    cases ms with
    | nil =>
      rw [writeMembers] at hfuel ⊢
      simp only [List.length_append, List.length_cons, List.length_nil] at hfuel
      obtain ⟨fuel, rfl⟩ : ∃ n, fuel = n + 1 := ⟨fuel - 1, by omega⟩
      have hread := hv fuel ('\x7d' :: rest) (by omega) (ended_cons (.inr (.inr rfl)) rest)
      have hclose : skipSpace ('\x7d' :: rest) = '\x7d' :: rest := skipSpace_cons (by decide) rest
      have hkey := readText_writeString key (':' :: (write v ++ '\x7d' :: rest))
      simp only [writeString, List.cons_append, List.append_assoc, List.nil_append] at hkey ⊢
      rw [readMembers]
      simp only [hkey, Option.bind_eq_bind, Option.bind_some, hcolon, hspace, hread, hclose,
        Option.pure_def, List.map_cons, List.map_nil]
    | cons n ns =>
      rw [writeMembers_cons_cons] at hfuel ⊢
      simp only [List.length_append, List.length_cons] at hfuel
      obtain ⟨fuel, rfl⟩ : ∃ n, fuel = n + 1 := ⟨fuel - 1, by omega⟩
      have hread := hv fuel (',' :: (writeMembers (n :: ns) ++ rest)) (by omega)
        (ended_cons (.inl rfl) _)
      have hcomma : skipSpace (',' :: (writeMembers (n :: ns) ++ rest)) =
        ',' :: (writeMembers (n :: ns) ++ rest) := skipSpace_cons (by decide) _
      have hquote : skipSpace (writeMembers (n :: ns) ++ rest) = writeMembers (n :: ns) ++ rest := by
        obtain ⟨ds, hds⟩ := exists_writeMembers_eq_cons n ns
        rw [hds, List.cons_append, skipSpace_cons (by decide)]
      have hrest := ih (by simp) (fun m hm => h m (List.mem_cons_of_mem _ hm)) fuel (by omega)
      have hkey := readText_writeString key
        (':' :: (write v ++ ',' :: (writeMembers (n :: ns) ++ rest)))
      simp only [writeString, List.cons_append, List.append_assoc, List.nil_append] at hkey ⊢
      rw [readMembers]
      simp only [hkey, Option.bind_eq_bind, Option.bind_some, hcolon, hspace, hread, hcomma, hquote,
        hrest, Option.pure_def, List.map_cons]

theorem ofMembers_some (members : List (String × Json)) :
    ofMembers (members.map fun m => (some m.1, m.2)) = .obj members := by
  have hall : (members.map fun m => ((some m.1 : Option String), m.2)).mapM
      (fun m => m.1.map (·, m.2)) = some members := by
    induction members with
    | nil => rfl
    | cons m ms ih => rw [List.map_cons, List.mapM_cons, ih]; rfl
  unfold ofMembers
  simp only [hall]

/-- What begins like a number is read as one. -/
theorem readValue_number (fuel : Nat) {c : Char} (cs : List Char)
    (h : c = '-' ∨ isDigit c = true) : readValue (fuel + 1) (c :: cs) = readNumber (c :: cs) := by
  have hnot (d : Char) (hd : isDigit d = false) (hm : d ≠ '-') : c ≠ d := by
    rintro rfl
    rcases h with h | h
    · exact hm h
    · rw [hd] at h
      cases h
  have hn := hnot 'n' rfl (by decide)
  have ht := hnot 't' rfl (by decide)
  have hf := hnot 'f' rfl (by decide)
  have hq := hnot '"' rfl (by decide)
  have ha := hnot '[' rfl (by decide)
  have ho := hnot '\x7b' rfl (by decide)
  rw [readValue]
  all_goals simp_all

theorem exists_writeInt_eq_cons (i : Int) :
    ∃ c cs, writeInt i = c :: cs ∧ (c = '-' ∨ isDigit c = true) := by
  unfold writeInt
  split
  · exact ⟨'-', _, rfl, .inl rfl⟩
  · cases hd : Text.digits i.natAbs with
    | nil => exact absurd hd (Text.digits_ne_nil _)
    | cons c cs => exact ⟨c, cs, rfl, .inr (isDigit_of_mem_digits (hd ▸ List.mem_cons_self ..))⟩

/-! ## Values, one constructor at a time -/

theorem readsBack_bool (b : Bool) : ReadsBack (.bool b) := by
  intro fuel rest hfuel _
  cases b with
  | true =>
    rw [write] at hfuel ⊢
    obtain ⟨fuel, rfl⟩ : ∃ n, fuel = n + 1 := ⟨fuel - 1, by simp at hfuel; omega⟩
    rfl
  | false =>
    rw [write] at hfuel ⊢
    obtain ⟨fuel, rfl⟩ : ∃ n, fuel = n + 1 := ⟨fuel - 1, by simp at hfuel; omega⟩
    rfl

theorem readsBack_num (i : Int) : ReadsBack (.num i) := by
  intro fuel rest hfuel hrest
  rw [write] at hfuel ⊢
  obtain ⟨c, cs, hhead, hc⟩ := exists_writeInt_eq_cons i
  obtain ⟨fuel, rfl⟩ : ∃ n, fuel = n + 1 := ⟨fuel - 1, by simp [hhead] at hfuel; omega⟩
  have hnumber := readNumber_writeInt i hrest
  rw [hhead, List.cons_append] at hnumber ⊢
  rw [readValue_number fuel _ hc, hnumber]

theorem readsBack_str (s : String) : ReadsBack (.str s) := by
  intro fuel rest hfuel _
  obtain ⟨fuel, rfl⟩ : ∃ n, fuel = n + 1 :=
    ⟨fuel - 1, by simp [write, writeString] at hfuel; omega⟩
  have htext := readText_writeString s rest
  simp only [write, writeString, List.cons_append, List.append_assoc, List.nil_append,
    readValue, htext, Option.bind_eq_bind, Option.bind_some, Option.pure_def]

theorem readsBack_arr {items : List Json} (h : ∀ j ∈ items, Plain j ∧ ReadsBack j) :
    ReadsBack (.arr items) := by
  intro fuel rest hfuel _
  rw [write, List.length_cons] at hfuel
  obtain ⟨fuel, rfl⟩ : ∃ n, fuel = n + 1 := ⟨fuel - 1, by omega⟩
  rw [write, List.cons_append, readValue]
  cases items with
  | nil =>
    have hspace : skipSpace (']' :: rest) = ']' :: rest := skipSpace_cons (by decide) rest
    rw [writeItems, List.cons_append, List.nil_append, hspace]
    rfl
  | cons k ks =>
    obtain ⟨c, cs, hhead, hc, hclose⟩ := exists_writeItems_eq_cons (h k (by simp)).1 ks
    have hread := readItems_writeItems (by simp) h fuel rest (by omega)
    rw [hhead, List.cons_append] at hread ⊢
    rw [skipSpace_cons hc]
    split
    next he => exact absurd (List.cons.inj he).1 hclose
    · rw [hread]
      rfl

theorem readsBack_obj {members : List (String × Json)}
    (h : ∀ m ∈ members, Plain m.2 ∧ ReadsBack m.2) : ReadsBack (.obj members) := by
  intro fuel rest hfuel _
  rw [write, List.length_cons] at hfuel
  obtain ⟨fuel, rfl⟩ : ∃ n, fuel = n + 1 := ⟨fuel - 1, by omega⟩
  rw [write, List.cons_append, readValue]
  cases members with
  | nil =>
    have hspace : skipSpace ('\x7d' :: rest) = '\x7d' :: rest := skipSpace_cons (by decide) rest
    rw [writeMembers, List.cons_append, List.nil_append, hspace]
    rfl
  | cons m ms =>
    obtain ⟨cs, hquote⟩ := exists_writeMembers_eq_cons m ms
    have hread := readMembers_writeMembers (by simp) h fuel rest (by omega)
    rw [hquote, List.cons_append] at hread ⊢
    rw [skipSpace_cons (by decide)]
    change (readMembers fuel ('"' :: (cs ++ rest))).map (fun r => (ofMembers r.1, r.2)) = _
    rw [hread, Option.map_some, ofMembers_some]

/-- Plain values are read back. -/
theorem readsBack {j : Json} (h : Plain j) : ReadsBack j := by
  induction h with
  | null =>
    intro fuel rest hfuel _
    rw [write] at hfuel ⊢
    obtain ⟨fuel, rfl⟩ : ∃ n, fuel = n + 1 := ⟨fuel - 1, by simp at hfuel; omega⟩
    rfl
  | bool b => exact readsBack_bool b
  | num i => exact readsBack_num i
  | str s => exact readsBack_str s
  | arr h ih => exact readsBack_arr fun j hj => ⟨h j hj, ih j hj⟩
  | obj h ih => exact readsBack_obj fun m hm => ⟨h m hm, ih m hm⟩

/-- A plain value is what its compact text holds. -/
theorem parse?_compact {j : Json} (h : Plain j) : parse? j.compact = some j := by
  obtain ⟨c, cs, hhead, hc, -, -⟩ := exists_write_eq_cons h
  have hspace : skipSpace (write j) = write j := by rw [hhead, skipSpace_cons hc]
  have hread := readsBack h (2 * (write j).length + 2) [] (by omega) ended_nil
  rw [List.append_nil] at hread
  unfold parse? compact
  rw [String.length_ofList, String.toList_ofList, hspace, hread]
  rfl

/-- A list is decoded to what it was written for if and only if each item is. -/
theorem list?_map_iff {α : Type} {write : α → Json} {read : Json → Option α} {items : List α} :
    list? read (.arr (items.map write)) = some items ↔ ∀ a ∈ items, read (write a) = some a := by
  change (items.map write).mapM read = some items ↔ _
  induction items with
  | nil => simp
  | cons a items ih =>
    rw [List.map_cons, List.mapM_cons, List.forall_mem_cons, ← ih]
    constructor
    · intro h
      obtain ⟨a', ha, h⟩ := Option.bind_eq_some_iff.1 h
      obtain ⟨items', hitems, h⟩ := Option.bind_eq_some_iff.1 h
      cases h
      exact ⟨ha, hitems⟩
    · rintro ⟨ha, hitems⟩
      rw [ha, hitems]
      rfl

end HubFederation.Json
