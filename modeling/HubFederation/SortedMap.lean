/-!
# Finite maps in key order

A `SortedMap κ α` is a list of entries whose keys ascend strictly, so that two
maps with the same look-ups are equal and listing a map is always in key order.

* `get?_insert`, `get?_erase`: what a look-up sees after an update.
* `ext_get?`: maps that agree on every look-up are equal.
* `mem_entries_iff`: the entries are exactly the successful look-ups.
-/
namespace HubFederation

/-- A type that can name the entries of a map: `compare` is a strict total order. -/
class Key (κ : Type) extends Ord κ, Std.TransOrd κ, Std.LawfulEqOrd κ

instance : Key String := {}
instance : Key Nat := {}
instance : Key UInt16 := {}

namespace Key

variable {κ : Type} [Key κ]

theorem lt_irrefl (k : κ) : compare k k ≠ .lt := by
  simp [Std.ReflCmp.compare_self]

theorem lt_trans {a b c : κ} (hab : compare a b = .lt) (hbc : compare b c = .lt) :
    compare a c = .lt :=
  Std.TransCmp.lt_trans hab hbc

theorem lt_asymm {a b : κ} (h : compare a b = .lt) : compare b a ≠ .lt := fun h' =>
  lt_irrefl a (lt_trans h h')

theorem eq_of_cmp {a b : κ} (h : compare a b = .eq) : a = b :=
  Std.LawfulEqCmp.eq_of_compare h

theorem gt_iff {a b : κ} : compare a b = .gt ↔ compare b a = .lt :=
  Std.OrientedCmp.gt_iff_lt

/-- An injective key function carries the order of its target back. -/
abbrev lift {ι : Type} (f : ι → κ) (inj : ∀ {a b}, f a = f b → a = b) : Key ι :=
  { compare := fun a b => compare (f a) (f b)
    eq_swap := Std.OrientedCmp.eq_swap
    isLE_trans := Std.TransCmp.isLE_trans
    compare_self := Std.ReflCmp.compare_self
    eq_of_compare := fun h => inj (eq_of_cmp h) }

end Key

/-- Pairs are ordered by their first part, then by their second. -/
instance {κ ι : Type} [Key κ] [Key ι] : Key (κ × ι) :=
  have hlt {a b c : κ × ι} (h : (compare a.1 b.1).then (compare a.2 b.2) = .lt)
      (h' : (compare b.1 c.1).then (compare b.2 c.2) = .lt) :
      (compare a.1 c.1).then (compare a.2 c.2) = .lt := by
    rcases Ordering.then_eq_lt.1 h with h | ⟨h, hs⟩ <;>
      rcases Ordering.then_eq_lt.1 h' with h' | ⟨h', hs'⟩
    · exact Ordering.then_eq_lt.2 (.inl (Key.lt_trans h h'))
    · exact Ordering.then_eq_lt.2 (.inl (Key.eq_of_cmp h' ▸ h))
    · exact Ordering.then_eq_lt.2 (.inl (Key.eq_of_cmp h ▸ h'))
    · refine Ordering.then_eq_lt.2 (.inr ⟨?_, Key.lt_trans hs hs'⟩)
      rw [Key.eq_of_cmp h]; exact h'
  have heq {a b : κ × ι} (h : (compare a.1 b.1).then (compare a.2 b.2) = .eq) : a = b := by
    rw [Ordering.then_eq_eq] at h
    exact Prod.ext (Key.eq_of_cmp h.1) (Key.eq_of_cmp h.2)
  { compare := fun a b => (compare a.1 b.1).then (compare a.2 b.2)
    eq_swap := fun {a b} => by
      rw [Ordering.swap_then, ← Std.OrientedCmp.eq_swap, ← Std.OrientedCmp.eq_swap]
    isLE_trans := fun {a b c} h h' => by
      rw [Ordering.isLE_iff_eq_lt_or_eq_eq] at h h' ⊢
      rcases h with h | h <;> rcases h' with h' | h'
      · exact .inl (hlt h h')
      · exact .inl (heq h' ▸ h)
      · exact .inl (heq h ▸ h')
      · exact .inr (heq h ▸ h')
    compare_self := fun {a} => by simp [Std.ReflCmp.compare_self]
    eq_of_compare := heq }

/-- A finite map, listed by ascending key. -/
structure SortedMap (κ : Type) [Key κ] (α : Type) where
  entries : List (κ × α)
  sorted : entries.Pairwise fun a b => compare a.1 b.1 = .lt
  deriving DecidableEq

/-- A finite set, listed in ascending order. -/
abbrev SortedSet (κ : Type) [Key κ] := SortedMap κ Unit

namespace SortedMap

variable {κ : Type} [Key κ] {α β : Type}

/-! ## Entry lists -/

/-- Puts `a` under `k` into an ascending list, replacing what was there. -/
def put (k : κ) (a : α) : List (κ × α) → List (κ × α)
  | [] => [(k, a)]
  | (k', a') :: es =>
    match compare k k' with
    | .lt => (k, a) :: (k', a') :: es
    | .eq => (k, a) :: es
    | .gt => (k', a') :: put k a es

/-- The value under `k`. -/
def find (k : κ) : List (κ × α) → Option α
  | [] => none
  | (k', a) :: es => if compare k k' = .eq then some a else find k es

theorem mem_put {k : κ} {a : α} {e : κ × α} : ∀ {es : List (κ × α)},
    e ∈ put k a es → e = (k, a) ∨ e ∈ es
  | [], h => by simpa [put] using h
  | (k', a') :: es, h => by
    unfold put at h
    split at h
    · simpa using h
    · rcases List.mem_cons.1 h with h | h
      · exact .inl h
      · exact .inr (List.mem_cons_of_mem _ h)
    · rcases List.mem_cons.1 h with h | h
      · exact .inr (by simp [h])
      · exact (mem_put h).imp_right (List.mem_cons_of_mem _)

theorem sorted_put (k : κ) (a : α) : ∀ {es : List (κ × α)},
    es.Pairwise (fun a b => compare a.1 b.1 = .lt) →
    (put k a es).Pairwise (fun a b => compare a.1 b.1 = .lt)
  | [], _ => by simp [put]
  | (k', a') :: es, h => by
    rw [List.pairwise_cons] at h
    unfold put
    split
    next hk =>
      refine List.pairwise_cons.2 ⟨fun e he => ?_, List.pairwise_cons.2 h⟩
      rcases List.mem_cons.1 he with rfl | he
      · exact hk
      · exact Key.lt_trans hk (h.1 e he)
    next hk => exact List.pairwise_cons.2 ⟨fun e he => Key.eq_of_cmp hk ▸ h.1 e he, h.2⟩
    next hk =>
      refine List.pairwise_cons.2 ⟨fun e he => ?_, sorted_put k a h.2⟩
      rcases mem_put he with rfl | he
      · exact Key.gt_iff.1 hk
      · exact h.1 e he

theorem find_put (k : κ) (a : α) (k' : κ) : ∀ es : List (κ × α),
    find k' (put k a es) = if compare k' k = .eq then some a else find k' es
  | [] => by simp [put, find]
  | (k'', a'') :: es => by
    unfold put
    split
    · simp [find]
    next hk =>
      obtain rfl := Key.eq_of_cmp hk
      simp only [find]
      split <;> rfl
    next hk =>
      rw [find, find, find_put k a k' es]
      split
      next h =>
        obtain rfl := Key.eq_of_cmp h
        rw [if_neg]
        rw [Key.gt_iff.1 hk]; decide
      · rfl

theorem find_eq_none {k : κ} : ∀ {es : List (κ × α)},
    (∀ e ∈ es, compare k e.1 ≠ .eq) → find k es = none
  | [], _ => rfl
  | (k', a) :: es, h => by
    rw [find, if_neg (h _ (List.mem_cons_self ..))]
    exact find_eq_none fun e he => h e (List.mem_cons_of_mem _ he)

theorem mem_of_find {k : κ} {a : α} : ∀ {es : List (κ × α)}, find k es = some a → (k, a) ∈ es
  | [], h => by cases h
  | (k', a') :: es, h => by
    rw [find] at h
    split at h
    next hk => obtain rfl := Key.eq_of_cmp hk; cases h; exact List.mem_cons_self ..
    · exact List.mem_cons_of_mem _ (mem_of_find h)

theorem find_of_mem {k : κ} {a : α} : ∀ {es : List (κ × α)},
    es.Pairwise (fun a b => compare a.1 b.1 = .lt) → (k, a) ∈ es → find k es = some a
  | (k', a') :: es, hs, h => by
    rw [List.pairwise_cons] at hs
    rcases List.mem_cons.1 h with h | h
    · cases h; simp [find, Std.ReflCmp.compare_self]
    · rw [find, if_neg, find_of_mem hs.2 h]
      intro he
      have := hs.1 _ h
      rw [← Key.eq_of_cmp he] at this
      exact Key.lt_irrefl k this

/-! ## The map -/

def empty : SortedMap κ α := ⟨[], .nil⟩

instance : EmptyCollection (SortedMap κ α) := ⟨empty⟩
instance : Inhabited (SortedMap κ α) := ⟨empty⟩

def get? (m : SortedMap κ α) (k : κ) : Option α := find k m.entries

def getD (m : SortedMap κ α) (k : κ) (d : α) : α := (m.get? k).getD d

def contains (m : SortedMap κ α) (k : κ) : Bool := (m.get? k).isSome

def insert (m : SortedMap κ α) (k : κ) (a : α) : SortedMap κ α :=
  ⟨put k a m.entries, sorted_put k a m.sorted⟩

def erase (m : SortedMap κ α) (k : κ) : SortedMap κ α :=
  ⟨m.entries.filter fun e => compare k e.1 != .eq, m.sorted.sublist List.filter_sublist⟩

/-- Replaces the value under `k`, or enters it, by what `f` makes of the present one. -/
def alter (m : SortedMap κ α) (k : κ) (f : Option α → α) : SortedMap κ α :=
  m.insert k (f (m.get? k))

/-- Replaces the value under `k` if there is one. -/
def modify (m : SortedMap κ α) (k : κ) (f : α → α) : SortedMap κ α :=
  match m.get? k with
  | some a => m.insert k (f a)
  | none => m

def filter (m : SortedMap κ α) (p : κ → α → Bool) : SortedMap κ α :=
  ⟨m.entries.filter fun e => p e.1 e.2, m.sorted.sublist List.filter_sublist⟩

def map (f : κ → α → β) (m : SortedMap κ α) : SortedMap κ β :=
  ⟨m.entries.map fun e => (e.1, f e.1 e.2),
    List.pairwise_map.2 (m.sorted.imp fun h => h)⟩

/-- All entries of `n`, and those of `m` under keys that `n` does not have. -/
def union (m n : SortedMap κ α) : SortedMap κ α :=
  n.entries.foldl (fun acc e => acc.insert e.1 e.2) m

def ofList (es : List (κ × α)) : SortedMap κ α :=
  es.foldl (fun acc e => acc.insert e.1 e.2) empty

def keys (m : SortedMap κ α) : List κ := m.entries.map (·.1)

def values (m : SortedMap κ α) : List α := m.entries.map (·.2)

def size (m : SortedMap κ α) : Nat := m.entries.length

def isEmpty (m : SortedMap κ α) : Bool := m.entries.isEmpty

@[simp] theorem get?_empty (k : κ) : (∅ : SortedMap κ α).get? k = none := rfl

theorem get?_insert (m : SortedMap κ α) (k k' : κ) (a : α) :
    (m.insert k a).get? k' = if compare k' k = .eq then some a else m.get? k' :=
  find_put k a k' m.entries

@[simp] theorem get?_insert_self (m : SortedMap κ α) (k : κ) (a : α) :
    (m.insert k a).get? k = some a := by
  simp [get?_insert, Std.ReflCmp.compare_self]

theorem get?_insert_of_ne (m : SortedMap κ α) {k k' : κ} (a : α) (h : k' ≠ k) :
    (m.insert k a).get? k' = m.get? k' := by
  rw [get?_insert, if_neg fun he => h (Key.eq_of_cmp he)]

theorem mem_entries_iff {m : SortedMap κ α} {k : κ} {a : α} :
    (k, a) ∈ m.entries ↔ m.get? k = some a :=
  ⟨find_of_mem m.sorted, mem_of_find⟩

theorem nodup_entries (m : SortedMap κ α) : m.entries.Nodup :=
  m.sorted.imp fun {a b} h (he : a = b) => Key.lt_irrefl b.1 (he ▸ h)

theorem get?_erase (m : SortedMap κ α) (k k' : κ) :
    (m.erase k).get? k' = if compare k' k = .eq then none else m.get? k' := by
  split
  next h =>
    obtain rfl := Key.eq_of_cmp h
    refine find_eq_none fun e he => ?_
    simpa using (List.mem_filter.1 he).2
  next h =>
    rw [Option.ext_iff]
    intro a
    rw [← mem_entries_iff, ← mem_entries_iff, erase, List.mem_filter]
    constructor
    · exact fun h => h.1
    · refine fun h' => ⟨h', ?_⟩
      simp only [bne_iff_ne, ne_eq]
      exact fun he => h (Key.eq_of_cmp he ▸ Std.ReflCmp.compare_self)

theorem get?_insert_ite [DecidableEq κ] (m : SortedMap κ α) (k k' : κ) (a : α) :
    (m.insert k a).get? k' = if k' = k then some a else m.get? k' := by
  simp only [get?_insert, Std.LawfulEqOrd.compare_eq_iff_eq]

theorem get?_erase_ite [DecidableEq κ] (m : SortedMap κ α) (k k' : κ) :
    (m.erase k).get? k' = if k' = k then none else m.get? k' := by
  simp only [get?_erase, Std.LawfulEqOrd.compare_eq_iff_eq]

@[simp] theorem get?_erase_self (m : SortedMap κ α) (k : κ) : (m.erase k).get? k = none := by
  simp [get?_erase, Std.ReflCmp.compare_self]

theorem get?_erase_of_ne (m : SortedMap κ α) {k k' : κ} (h : k' ≠ k) :
    (m.erase k).get? k' = m.get? k' := by
  rw [get?_erase, if_neg fun he => h (Key.eq_of_cmp he)]

theorem get?_insert_eq_some [DecidableEq κ] {m : SortedMap κ α} {k k' : κ} {a b : α} :
    (m.insert k a).get? k' = some b ↔ (k' = k ∧ a = b) ∨ (k' ≠ k ∧ m.get? k' = some b) := by
  rw [get?_insert_ite]
  split <;> simp_all

theorem get?_erase_eq_some [DecidableEq κ] {m : SortedMap κ α} {k k' : κ} {a : α} :
    (m.erase k).get? k' = some a ↔ k' ≠ k ∧ m.get? k' = some a := by
  rw [get?_erase_ite]
  split <;> simp_all

theorem get?_alter [DecidableEq κ] (m : SortedMap κ α) (k k' : κ) (f : Option α → α) :
    (m.alter k f).get? k' = if k' = k then some (f (m.get? k)) else m.get? k' := by
  unfold alter
  by_cases h : k' = k
  · subst h; simp
  · rw [get?_insert_of_ne _ _ h, if_neg h]

theorem get?_modify [DecidableEq κ] (m : SortedMap κ α) (k k' : κ) (f : α → α) :
    (m.modify k f).get? k' = if k' = k then (m.get? k).map f else m.get? k' := by
  unfold modify
  by_cases h : k' = k
  · subst h
    rw [if_pos rfl]
    cases hm : m.get? k' with
    | none => exact hm
    | some a => exact get?_insert_self m k' (f a)
  · rw [if_neg h]
    cases m.get? k with
    | none => rfl
    | some a => exact get?_insert_of_ne m (f a) h

theorem get?_filter (m : SortedMap κ α) (p : κ → α → Bool) (k : κ) :
    (m.filter p).get? k = (m.get? k).filter (p k) := by
  rw [Option.ext_iff]
  intro a
  rw [← mem_entries_iff, filter, List.mem_filter, mem_entries_iff, Option.filter_eq_some_iff]

theorem get?_map (f : κ → α → β) (m : SortedMap κ α) (k : κ) :
    (m.map f).get? k = (m.get? k).map (f k) := by
  rw [Option.ext_iff]
  intro b
  rw [← mem_entries_iff, map, List.mem_map, Option.map_eq_some_iff]
  constructor
  · rintro ⟨⟨k', a⟩, h, he⟩
    cases he
    exact ⟨a, mem_entries_iff.1 h, rfl⟩
  · rintro ⟨a, h, rfl⟩
    exact ⟨(k, a), mem_entries_iff.2 h, rfl⟩

theorem mem_keys_iff {m : SortedMap κ α} {k : κ} : k ∈ m.keys ↔ (m.get? k).isSome := by
  unfold keys
  rw [List.mem_map, Option.isSome_iff_exists]
  constructor
  · rintro ⟨⟨k, a⟩, h, rfl⟩; exact ⟨a, mem_entries_iff.1 h⟩
  · rintro ⟨a, h⟩; exact ⟨(k, a), mem_entries_iff.2 h, rfl⟩

theorem keys_insert {m : SortedMap κ α} {k k' : κ} {a : α} :
    k' ∈ (m.insert k a).keys ↔ k' = k ∨ k' ∈ m.keys := by
  rw [mem_keys_iff, mem_keys_iff, get?_insert]
  split
  next h => simp [Key.eq_of_cmp h]
  next h =>
    refine ⟨.inr, fun h' => h'.resolve_left fun he => h ?_⟩
    rw [he]; exact Std.ReflCmp.compare_self

/-- The keys of a map made from entries are those of the entries. -/
theorem mem_keys_ofList {es : List (κ × α)} {k : κ} :
    k ∈ (ofList es).keys ↔ k ∈ es.map (·.1) := by
  have h : ∀ (es : List (κ × α)) (m : SortedMap κ α),
      k ∈ (es.foldl (fun acc e => acc.insert e.1 e.2) m).keys ↔ k ∈ m.keys ∨ k ∈ es.map (·.1) := by
    intro es
    induction es with
    | nil => simp
    | cons e es ih =>
      intro m
      rw [List.foldl_cons, ih, keys_insert, List.map_cons, List.mem_cons]
      rw [or_comm (a := k = e.1), or_assoc]
  unfold ofList
  rw [h]
  simp [keys, empty]

/-- Lists that ascend strictly by some key are equal if they have the same elements. -/
theorem eq_of_mem_iff (key : β → κ) : ∀ {as bs : List β},
    as.Pairwise (fun a b => compare (key a) (key b) = .lt) →
    bs.Pairwise (fun a b => compare (key a) (key b) = .lt) →
    (∀ e, e ∈ as ↔ e ∈ bs) → as = bs
  | [], [], _, _, _ => rfl
  | [], b :: bs, _, _, h => absurd ((h b).2 (List.mem_cons_self ..)) List.not_mem_nil
  | a :: as, [], _, _, h => absurd ((h a).1 (List.mem_cons_self ..)) List.not_mem_nil
  | a :: as, b :: bs, ha, hb, h => by
    rw [List.pairwise_cons] at ha hb
    have hab : a = b := by
      rcases List.mem_cons.1 ((h a).1 (List.mem_cons_self ..)) with h1 | h1
      · exact h1
      rcases List.mem_cons.1 ((h b).2 (List.mem_cons_self ..)) with h2 | h2
      · exact h2.symm
      exact absurd (hb.1 a h1) (Key.lt_asymm (ha.1 b h2))
    subst hab
    refine congrArg (a :: ·) (eq_of_mem_iff key ha.2 hb.2 fun x => ⟨fun hx => ?_, fun hx => ?_⟩)
    · rcases List.mem_cons.1 ((h x).1 (List.mem_cons_of_mem _ hx)) with rfl | h1
      · exact absurd (ha.1 x hx) (Key.lt_irrefl (key x))
      · exact h1
    · rcases List.mem_cons.1 ((h x).2 (List.mem_cons_of_mem _ hx)) with rfl | h1
      · exact absurd (hb.1 x hx) (Key.lt_irrefl (key x))
      · exact h1

theorem ext_get? {m n : SortedMap κ α} (h : ∀ k, m.get? k = n.get? k) : m = n := by
  have : m.entries = n.entries := eq_of_mem_iff (·.1) m.sorted n.sorted fun e => by
    rw [show e = (e.1, e.2) from rfl, mem_entries_iff, mem_entries_iff, h]
  cases m; cases n; simp_all

/-! ## Maps from entries -/

/-- What a map made from entries holds is one of them. -/
theorem mem_of_get?_ofList {es : List (κ × α)} {k : κ} {a : α} (h : (ofList es).get? k = some a) :
    (k, a) ∈ es := by
  have hfold : ∀ (es : List (κ × α)) (m : SortedMap κ α),
      (es.foldl (fun acc e => acc.insert e.1 e.2) m).get? k = some a →
        (k, a) ∈ es ∨ m.get? k = some a := by
    intro es
    induction es with
    | nil => exact fun m h => .inr h
    | cons e es ih =>
      intro m h
      rcases ih (m.insert e.1 e.2) h with hmem | hget
      · exact .inl (List.mem_cons_of_mem _ hmem)
      · rw [get?_insert] at hget
        split at hget
        next hk =>
          cases hget
          rw [Key.eq_of_cmp hk]
          exact .inl (List.mem_cons_self ..)
        · exact .inr hget
  exact (hfold es empty h).resolve_right fun hget => nomatch hget

/-- Entering ascending entries makes them the map's. -/
theorem get?_foldl_insert {es : List (κ × α)} (hs : es.Pairwise fun a b => compare a.1 b.1 = .lt)
    (m : SortedMap κ α) (k : κ) :
    (es.foldl (fun acc e => acc.insert e.1 e.2) m).get? k = (find k es).or (m.get? k) := by
  induction es generalizing m with
  | nil => rfl
  | cons e es ih =>
    obtain ⟨k', a⟩ := e
    rw [List.pairwise_cons] at hs
    rw [List.foldl_cons, ih hs.2, get?_insert, find]
    split
    next hk =>
      obtain rfl := Key.eq_of_cmp hk
      have hnone : find k es = none := find_eq_none fun e he hc => by
        have hlt := hs.1 e he
        rw [hc] at hlt
        cases hlt
      rw [hnone]
      rfl
    · rfl

/-- The entries of a map make up the map. -/
theorem ofList_entries (m : SortedMap κ α) : ofList m.entries = m := by
  refine ext_get? fun k => ?_
  unfold ofList
  rw [get?_foldl_insert m.sorted]
  exact Option.or_none

theorem isEmpty_eq_false_iff {m : SortedMap κ α} :
    m.isEmpty = false ↔ ∃ k a, m.get? k = some a := by
  unfold isEmpty
  rw [List.isEmpty_eq_false_iff_exists_mem]
  exact ⟨fun ⟨e, he⟩ => ⟨e.1, e.2, mem_entries_iff.1 he⟩,
    fun ⟨k, a, h⟩ => ⟨(k, a), mem_entries_iff.2 h⟩⟩

end SortedMap

namespace SortedSet

variable {κ : Type} [Key κ]

def add (s : SortedSet κ) (k : κ) : SortedSet κ := s.insert k ()

end SortedSet

end HubFederation
