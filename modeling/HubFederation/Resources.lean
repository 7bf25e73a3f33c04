import HubFederation.ConfigMap

/-!
# ConfigMaps on hubs

`Resources` says which ConfigMaps are on which hub, or shall be. Each is kept under
its hub and its own name, and a hub is listed only while it has one: two values that
hold the same ConfigMaps are equal.

* `toApply`, `toDelete`: what turns one value into another.
* `get?_insert`, `get?_remove`: what a look-up sees after an update.
* `ext_get?`: values that agree on every look-up are equal.
-/
namespace HubFederation

/-- ConfigMaps by hub and name. -/
structure Resources where
  byHub : SortedMap String (SortedMap String ConfigMap)
  /-- Every ConfigMap is kept under its own name. -/
  keyed : ∀ hub cms, byHub.get? hub = some cms → ∀ name cm, cms.get? name = some cm → cm.key = name
  /-- No hub is listed without a ConfigMap. -/
  inhabited : ∀ hub cms, byHub.get? hub = some cms → cms.isEmpty = false
  deriving DecidableEq

namespace Resources

def empty : Resources := ⟨∅, fun _ _ h => (nomatch h), fun _ _ h => (nomatch h)⟩

instance : EmptyCollection Resources := ⟨empty⟩
instance : Inhabited Resources := ⟨empty⟩

/-- The ConfigMaps of one hub. -/
def of (r : Resources) (hub : String) : SortedMap String ConfigMap := r.byHub.getD hub ∅

/-- mirrors `Resources.get` -/
def get? (r : Resources) (hub name : String) : Option ConfigMap := (r.of hub).get? name

theorem key_of_get? {r : Resources} {hub name : String} {cm : ConfigMap}
    (h : r.get? hub name = some cm) : cm.key = name := by
  unfold get? of SortedMap.getD at h
  cases hc : r.byHub.get? hub with
  | none => rw [hc] at h; cases h
  | some cms => rw [hc] at h; exact r.keyed hub cms hc name cm h

/-- mirrors `Resources.insert` -/
def insert (r : Resources) (hub : String) (cm : ConfigMap) : Resources where
  byHub := r.byHub.insert hub ((r.of hub).insert cm.key cm)
  keyed hub' cms h name cm' hn := by
    rw [SortedMap.get?_insert] at h
    split at h
    · cases h
      rw [SortedMap.get?_insert] at hn
      split at hn
      next he => cases hn; exact (Key.eq_of_cmp he).symm
      · exact key_of_get? hn
    · exact r.keyed hub' cms h name cm' hn
  inhabited hub' cms h := by
    rw [SortedMap.get?_insert] at h
    split at h
    · cases h; exact SortedMap.isEmpty_eq_false_iff.2 ⟨_, _, SortedMap.get?_insert_self ..⟩
    · exact r.inhabited hub' cms h

/-- Takes a ConfigMap away, and its hub with the last one.
mirrors `Resources.remove` -/
def remove (r : Resources) (hub name : String) : Resources where
  byHub :=
    let cms := (r.of hub).erase name
    if cms.isEmpty then r.byHub.erase hub else r.byHub.insert hub cms
  keyed hub' cms h name' cm hn := by
    simp only at h
    split at h
    · rw [SortedMap.get?_erase] at h
      split at h
      · cases h
      · exact r.keyed hub' cms h name' cm hn
    · rw [SortedMap.get?_insert] at h
      split at h
      · cases h
        rw [SortedMap.get?_erase] at hn
        split at hn
        · cases hn
        · exact key_of_get? hn
      · exact r.keyed hub' cms h name' cm hn
  inhabited hub' cms h := by
    simp only at h
    split at h
    · rw [SortedMap.get?_erase] at h
      split at h
      · cases h
      · exact r.inhabited hub' cms h
    next he =>
      rw [SortedMap.get?_insert] at h
      split at h
      · cases h; simpa using he
      · exact r.inhabited hub' cms h

/-- Each ConfigMap with its hub, by hub and then by name.
mirrors `Resources.iter` -/
def toList (r : Resources) : List (String × ConfigMap) :=
  r.byHub.entries.flatMap fun e => e.2.values.map fun cm => (e.1, cm)

/-- All of `s`, and what `r` has besides.
mirrors `Resources.merge` -/
def merge (r s : Resources) : Resources := s.toList.foldl (fun r e => r.insert e.1 e.2) r

/-- The hubs that have a ConfigMap.
mirrors `Resources.hubs` -/
def hubs (r : Resources) : List String := r.byHub.keys

/-- mirrors `Resources.len` -/
def size (r : Resources) : Nat := r.byHub.values.foldl (fun n cms => n + cms.size) 0

/-- mirrors `Resources.is_empty` -/
def isEmpty (r : Resources) : Bool := r.byHub.isEmpty

/-- The ConfigMaps of `next` that `r` does not have like that.
mirrors `Resources.to_apply` -/
def toApply (r next : Resources) : List (String × ConfigMap) :=
  next.toList.filter fun (hub, cm) => r.get? hub cm.key ≠ some cm

/-- The hubs and names of what `r` has and `next` does not.
mirrors `Resources.to_delete` -/
def toDelete (r next : Resources) : List (String × String) :=
  (r.toList.filter fun (hub, cm) => (next.get? hub cm.key).isNone).map fun (hub, cm) => (hub, cm.key)

/-! ## Look-ups -/

@[simp] theorem get?_empty (hub name : String) : (∅ : Resources).get? hub name = none := rfl

theorem of_insert (r : Resources) (hub hub' : String) (cm : ConfigMap) :
    (r.insert hub cm).of hub' =
      if hub' = hub then (r.of hub).insert cm.key cm else r.of hub' := by
  unfold insert of SortedMap.getD
  split
  next h => subst h; simp
  next h => simp [SortedMap.get?_insert_of_ne _ _ h]

theorem get?_insert (r : Resources) (hub hub' name : String) (cm : ConfigMap) :
    (r.insert hub cm).get? hub' name =
      if hub' = hub ∧ name = cm.key then some cm else r.get? hub' name := by
  unfold get?
  rw [of_insert]
  by_cases hh : hub' = hub
  · subst hh
    by_cases hn : name = cm.key
    · subst hn; simp
    · simp [hn, SortedMap.get?_insert_of_ne _ _ hn]
  · simp [hh]

/-- What ConfigMaps leave that are entered one by one: under a name that one of them has there is
one of those, under any other name all is as it was. -/
theorem get?_foldl_insert (es : List (String × ConfigMap)) (r : Resources) (hub name : String) :
    ((es.foldl (fun r e => r.insert e.1 e.2) r).get? hub name = r.get? hub name ∧
        ∀ e ∈ es, ¬ (e.1 = hub ∧ e.2.key = name)) ∨
      ∃ e ∈ es, e.1 = hub ∧ e.2.key = name ∧
        (es.foldl (fun r e => r.insert e.1 e.2) r).get? hub name = some e.2 := by
  induction es generalizing r with
  | nil => exact .inl ⟨rfl, by simp⟩
  | cons e es ih =>
    rw [List.foldl_cons]
    rcases ih (r.insert e.1 e.2) with ⟨hget, hnone⟩ | ⟨e', he', hhub, hname, hget⟩
    · rw [get?_insert] at hget
      by_cases hp : hub = e.1 ∧ name = e.2.key
      · rw [if_pos hp] at hget
        exact .inr ⟨e, List.mem_cons_self .., hp.1.symm, hp.2.symm, hget⟩
      · rw [if_neg hp] at hget
        refine .inl ⟨hget, fun e' he' => ?_⟩
        rcases List.mem_cons.1 he' with rfl | he'
        · exact fun h => hp ⟨h.1.symm, h.2.symm⟩
        · exact hnone e' he'
    · exact .inr ⟨e', List.mem_cons_of_mem _ he', hhub, hname, hget⟩

theorem of_remove (r : Resources) (hub hub' name : String) :
    (r.remove hub name).of hub' = if hub' = hub then (r.of hub).erase name else r.of hub' := by
  unfold remove
  by_cases hh : hub' = hub
  · subst hh
    rw [if_pos rfl]
    unfold of SortedMap.getD
    simp only
    split
    next h =>
      rw [SortedMap.get?_erase_self]
      refine (SortedMap.ext_get? fun k => ?_).symm
      refine Option.eq_none_iff_forall_ne_some.2 fun cm hk => ?_
      exact absurd h (by rw [SortedMap.isEmpty_eq_false_iff.2 ⟨k, cm, hk⟩]; exact Bool.false_ne_true)
    · rw [SortedMap.get?_insert_self, Option.getD_some]
  · rw [if_neg hh]
    unfold of SortedMap.getD
    simp only
    split
    · rw [SortedMap.get?_erase_of_ne _ hh]
    · rw [SortedMap.get?_insert_of_ne _ _ hh]

theorem get?_remove (r : Resources) (hub hub' name name' : String) :
    (r.remove hub name).get? hub' name' =
      if hub' = hub ∧ name' = name then none else r.get? hub' name' := by
  unfold get?
  rw [of_remove]
  by_cases hh : hub' = hub
  · subst hh
    by_cases hn : name' = name
    · subst hn; simp
    · simp [hn, SortedMap.get?_erase_of_ne _ hn]
  · simp [hh]

theorem byHub_get? (r : Resources) (hub : String) :
    r.byHub.get? hub = if (r.of hub).isEmpty then none else some (r.of hub) := by
  unfold of SortedMap.getD
  cases h : r.byHub.get? hub with
  | none => rfl
  | some cms => simp [r.inhabited hub cms h]

theorem ext_get? {r s : Resources} (h : ∀ hub name, r.get? hub name = s.get? hub name) : r = s := by
  have of_eq (hub : String) : r.of hub = s.of hub := SortedMap.ext_get? (h hub)
  have byHub_eq : r.byHub = s.byHub := SortedMap.ext_get? fun hub => by
    rw [byHub_get?, byHub_get?, of_eq]
  cases r; cases s; simp_all

/-! ## Listing -/

/-- The ConfigMaps of a hub are those kept there. -/
theorem mem_values_of {r : Resources} {hub : String} {cm : ConfigMap} :
    cm ∈ (r.of hub).values ↔ r.get? hub cm.key = some cm := by
  unfold SortedMap.values
  rw [List.mem_map]
  constructor
  · rintro ⟨⟨name, cm'⟩, h, rfl⟩
    have hget : r.get? hub name = some cm' := SortedMap.mem_entries_iff.1 h
    rwa [key_of_get? hget]
  · exact fun h => ⟨(cm.key, cm), SortedMap.mem_entries_iff.2 h, rfl⟩

/-- A ConfigMap is listed with a hub if it is kept there. -/
theorem mem_toList {r : Resources} {hub : String} {cm : ConfigMap} :
    (hub, cm) ∈ r.toList ↔ r.get? hub cm.key = some cm := by
  unfold toList get? of SortedMap.getD
  rw [List.mem_flatMap]
  constructor
  · rintro ⟨⟨hub', cms⟩, he, hc⟩
    obtain ⟨cm', hv, hp⟩ := List.mem_map.1 hc
    obtain ⟨⟨name, cm''⟩, hn, rfl⟩ := List.mem_map.1 hv
    cases hp
    rw [SortedMap.mem_entries_iff] at he hn
    rw [he, Option.getD_some, r.keyed _ _ he _ _ hn, hn]
  · intro h
    cases hc : r.byHub.get? hub with
    | none => rw [hc] at h; cases h
    | some cms =>
      rw [hc, Option.getD_some] at h
      refine ⟨(hub, cms), SortedMap.mem_entries_iff.2 hc, List.mem_map.2 ⟨cm, ?_, rfl⟩⟩
      exact List.mem_map.2 ⟨(cm.key, cm), SortedMap.mem_entries_iff.2 h, rfl⟩

/-- What is merged in comes first. -/
theorem get?_merge (r s : Resources) (hub name : String) :
    (r.merge s).get? hub name = (s.get? hub name).or (r.get? hub name) := by
  unfold merge
  rcases get?_foldl_insert s.toList r hub name with ⟨hget, hnone⟩ | ⟨e, he, rfl, rfl, hget⟩
  · rw [hget]
    cases hs : s.get? hub name with
    | none => rfl
    | some cm =>
      have hkey := key_of_get? hs
      exact absurd ⟨rfl, hkey⟩ (hnone (hub, cm) (mem_toList.2 (hkey ▸ hs)))
  · rw [hget, mem_toList.1 he]
    rfl

/-- The list ascends by hub and name. -/
theorem sorted_toList (r : Resources) :
    r.toList.Pairwise fun a b => compare (a.1, a.2.key) (b.1, b.2.key) = .lt := by
  have hkey : ∀ e ∈ r.byHub.entries, ∀ x ∈ e.2.entries, x.2.key = x.1 := fun e he x hx =>
    r.keyed e.1 e.2 (SortedMap.mem_entries_iff.1 he) x.1 x.2 (SortedMap.mem_entries_iff.1 hx)
  unfold toList SortedMap.values
  rw [List.pairwise_flatMap]
  constructor
  · intro e he
    rw [List.map_map, List.pairwise_map]
    refine e.2.sorted.imp_of_mem fun {x y} hx hy h => ?_
    simp only [Function.comp_apply, hkey e he x hx, hkey e he y hy]
    exact Ordering.then_eq_lt.2 (.inr ⟨Std.ReflCmp.compare_self, h⟩)
  · refine r.byHub.sorted.imp fun {e f} h a ha b hb => ?_
    obtain ⟨-, -, rfl⟩ := List.mem_map.1 ha
    obtain ⟨-, -, rfl⟩ := List.mem_map.1 hb
    exact Ordering.then_eq_lt.2 (.inl h)

end Resources

end HubFederation
