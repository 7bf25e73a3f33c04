/-!
# Cutting texts at separators

Texts are cut as lists of characters, at the first or the last separator.

* `eq_of_cutFirst`, `eq_of_cutLast`: the parts and the separator make up the text, and the part
  on the searched side has no separator.
* `cutFirst_append`, `cutLast_append`: what was put together with a separator is cut there again.
-/
namespace HubFederation.Text

/-- The text before and after the first `c`. -/
def cutFirst (c : Char) : List Char → Option (List Char × List Char)
  | [] => none
  | x :: xs => if x = c then some ([], xs) else (cutFirst c xs).map fun (a, b) => (x :: a, b)

/-- The text before and after the last `c`. -/
def cutLast (c : Char) : List Char → Option (List Char × List Char)
  | [] => none
  | x :: xs =>
    match cutLast c xs with
    | some (a, b) => some (x :: a, b)
    | none => if x = c then some ([], xs) else none

/-- The text before and after the first occurrence of `sep`. -/
def cutAt (sep : List Char) : List Char → Option (List Char × List Char)
  | [] => if sep = [] then some ([], []) else none
  | x :: xs =>
    match sep.isPrefixOf? (x :: xs) with
    | some rest => some ([], rest)
    | none => (cutAt sep xs).map fun (a, b) => (x :: a, b)

theorem cutFirst_eq_none {c : Char} : ∀ {s : List Char}, cutFirst c s = none ↔ c ∉ s
  | [] => by simp [cutFirst]
  | x :: xs => by
    unfold cutFirst
    split
    next h => simp [h]
    next h => simp [Option.map_eq_none_iff, cutFirst_eq_none, Ne.symm h]

theorem eq_of_cutFirst {c : Char} : ∀ {s a b : List Char}, cutFirst c s = some (a, b) →
    s = a ++ c :: b ∧ c ∉ a
  | [], _, _, h => by cases h
  | x :: xs, a, b, h => by
    unfold cutFirst at h
    split at h
    next hx => cases h; simp [hx]
    next hx =>
      obtain ⟨⟨a', b'⟩, h', he⟩ := Option.map_eq_some_iff.1 h
      cases he
      have := eq_of_cutFirst h'
      exact ⟨by simp [this.1], by simp [this.2, Ne.symm hx]⟩

theorem cutFirst_append {c : Char} {b : List Char} : ∀ {a : List Char}, c ∉ a →
    cutFirst c (a ++ c :: b) = some (a, b)
  | [], _ => by simp [cutFirst]
  | x :: a, h => by
    simp only [List.mem_cons, not_or] at h
    simp [cutFirst, Ne.symm h.1, cutFirst_append h.2]

theorem cutLast_eq_none {c : Char} : ∀ {s : List Char}, cutLast c s = none ↔ c ∉ s
  | [] => by simp [cutLast]
  | x :: xs => by
    unfold cutLast
    split
    next a b h =>
      have : ¬ cutLast c xs = none := by simp [h]
      rw [cutLast_eq_none] at this
      simp only [reduceCtorEq, List.mem_cons, not_or, false_iff, not_and]
      exact fun _ => this
    next h =>
      have h' := cutLast_eq_none.1 h
      split
      next hx => simp [hx]
      next hx => simp [Ne.symm hx, h']

theorem eq_of_cutLast {c : Char} : ∀ {s a b : List Char}, cutLast c s = some (a, b) →
    s = a ++ c :: b ∧ c ∉ b
  | [], _, _, h => by cases h
  | x :: xs, a, b, h => by
    unfold cutLast at h
    split at h
    next a' b' h' =>
      cases h
      have := eq_of_cutLast h'
      exact ⟨by simp [this.1], this.2⟩
    next h' =>
      split at h
      next hx => cases h; exact ⟨by simp [hx], cutLast_eq_none.1 h'⟩
      · cases h

theorem cutLast_append {c : Char} {b : List Char} (hb : c ∉ b) : ∀ (a : List Char),
    cutLast c (a ++ c :: b) = some (a, b)
  | [] => by simp [cutLast, cutLast_eq_none.2 hb]
  | x :: a => by simp [cutLast, cutLast_append hb a]

end HubFederation.Text
