import HubFederation.Proofs.Mapping.Reading
import HubFederation.Proofs.Render.Owned
import Mathlib.Data.Bool.Basic
import Mathlib.Logic.Function.Basic

/-!
# Two controllers on the same hubs

A `Ledger` holds what two controllers have to do with each other: the ConfigMaps on the
hubs, what each of them has cached, and what each of them last put in place. A controller
does two things to it. It adopts what it finds on the hubs, and it settles its cache and
the hubs on what it rendered.

* `held_adopt`: adopting keeps the caches true and apart.
* `held_settle`: so does settling, unless both caches then hold one ConfigMap.
* `not_isolated_of_clash`: if they do, what one controller put in place is gone once the
  other one takes its own things away.
-/
namespace HubFederation

/-- The hubs, and what each of two controllers has cached and last put in place. -/
structure Ledger where
  hubs : Resources
  cache : Bool → Resources
  placed : Bool → Resources

namespace Ledger

/-- A controller has cached `c`. -/
def adopt (l : Ledger) (i : Bool) (c : Resources) : Ledger :=
  { l with cache := Function.update l.cache i c }

/-- A controller has put `next` in place, and nothing else. -/
def settle (l : Ledger) (i : Bool) (next : Resources) : Ledger where
  hubs := ((l.cache i).diff next).foldl (Call.runUnless fun _ _ => false) l.hubs
  cache := Function.update l.cache i next
  placed := Function.update l.placed i next

section
variable (l : Ledger) (i : Bool) (r : Resources)

@[simp] theorem cache_adopt_self : (l.adopt i r).cache i = r := Function.update_self ..
@[simp] theorem cache_adopt_not : (l.adopt i r).cache (!i) = l.cache (!i) :=
  Function.update_of_ne (by simp) ..
@[simp] theorem placed_adopt : (l.adopt i r).placed = l.placed := rfl
@[simp] theorem cache_settle_self : (l.settle i r).cache i = r := Function.update_self ..
@[simp] theorem cache_settle_not : (l.settle i r).cache (!i) = l.cache (!i) :=
  Function.update_of_ne (by simp) ..
@[simp] theorem placed_settle_self : (l.settle i r).placed i = r := Function.update_self ..
@[simp] theorem placed_settle_not : (l.settle i r).placed (!i) = l.placed (!i) :=
  Function.update_of_ne (by simp) ..

end

/-- Adopting what is cached already changes nothing. -/
theorem adopt_cache (l : Ledger) (i : Bool) : l.adopt i (l.cache i) = l := by
  unfold adopt
  rw [Function.update_eq_self]

/-- What a controller cached before it put something in place matters for its calls alone. -/
theorem settle_adopt (l : Ledger) (i : Bool) (c next : Resources) :
    (l.adopt i c).settle i next =
      ⟨(c.diff next).foldl (Call.runUnless fun _ _ => false) l.hubs,
        Function.update l.cache i next, Function.update l.placed i next⟩ := by
  unfold settle
  rw [cache_adopt_self]
  unfold adopt
  rw [Function.update_idem]

/-- Whatever a controller last put in place is on its hub under its name, with its labels and
data. -/
def Isolated (l : Ledger) : Prop :=
  ∀ i hub name cm, (l.placed i).get? hub name = some cm →
    (l.hubs.get? hub name).map ConfigMap.normalize = some cm

/-- No ConfigMap is cached by both controllers. -/
def Apart (l : Ledger) : Prop :=
  ∀ i hub name, (l.cache i).get? hub name ≠ none → (l.cache (!i)).get? hub name = none

section
variable (pairs : Bool → String × String) (owner : String → Bool)

/-- The labels of the pair that a controller looks after. -/
def labels (i : Bool) : Labels := .pair (pairs i).1 (pairs i).2

/-- What two controllers keep up as long as their caches stay apart: caches say what is on
the hubs, under the labels of their pairs, what was put in place is cached, and a pair's
labels are on names of its own. -/
structure Held (l : Ledger) : Prop where
  mirrored : ∀ i hub name cm, (l.cache i).get? hub name = some cm →
    (l.hubs.get? hub name).map ConfigMap.normalize = some cm
  labeled : ∀ i hub name cm, (l.cache i).get? hub name = some cm →
    (labels pairs i).selects cm.labelSet
  named : ∀ i hub name cm, l.hubs.get? hub name = some cm →
    (labels pairs i).selects cm.labelSet → NamedFor (owner · = i) cm
  placed : ∀ i hub name cm, (l.placed i).get? hub name = some cm →
    (l.cache i).get? hub name = some cm

end

section
variable {pairs : Bool → String × String} {owner : String → Bool} {l : Ledger}

theorem Held.isolated (h : Held pairs owner l) : l.Isolated := fun i hub name cm hp =>
  h.mirrored i hub name cm (h.placed i hub name cm hp)

/-- What is cached for one controller is on its hub. -/
theorem Held.on_hub (h : Held pairs owner l) {i : Bool} {hub name : String} {cm : ConfigMap}
    (hc : (l.cache i).get? hub name = some cm) :
    ∃ found, l.hubs.get? hub name = some found ∧ found.normalize = cm ∧
      (labels pairs i).selects found.labelSet := by
  obtain ⟨found, hf, hn⟩ := Option.map_eq_some_iff.1 (h.mirrored i hub name cm hc)
  refine ⟨found, hf, hn, ?_⟩
  have hl := h.labeled i hub name cm hc
  rwa [← hn] at hl

/-- A name in the cache of a controller is one that it would give. -/
theorem Held.purpose (h : Held pairs owner l) {i : Bool} {hub name : String}
    (hc : (l.cache i).get? hub name ≠ none) :
    ∃ p : Purpose, p.name = name ∧ ∀ route, p.route? = some route → owner route = i := by
  obtain ⟨cm, hcm⟩ := Option.ne_none_iff_exists'.1 hc
  obtain ⟨found, hf, -, hl⟩ := h.on_hub hcm
  obtain ⟨p, hp, hroute⟩ := h.named i hub name found hf hl
  refine ⟨p, ?_, hroute⟩
  rw [← Resources.key_of_get? hf, (ConfigMap.key_of_name hp).1]

/-! ## Adopting -/

/-- What is adopted is on the hub under the name under which it is cached. -/
theorem Held.adopted (h : Held pairs owner l) {i : Bool} {c : Resources}
    (ha : Resources.Adopts (labels pairs i) l.hubs (l.cache i) c) (hub name : String) :
    c.get? hub name = (l.cache i).get? hub name ∨
      ∃ found, l.hubs.get? hub name = some found ∧ (labels pairs i).selects found.labelSet ∧
        c.get? hub name = some found.normalize := by
  rcases ha hub name with he | ⟨found, hf, hl, hk, hc⟩
  · exact .inl he
  · obtain ⟨p, hp, -⟩ := h.named i hub found.key found hf hl
    rw [(ConfigMap.key_of_name hp).2, ← (ConfigMap.key_of_name hp).1] at hk
    exact .inr ⟨found, hk ▸ hf, hl, hc⟩

/-- What was cached stays cached as it was. -/
theorem Held.adopts_keeps (h : Held pairs owner l) {i : Bool} {c : Resources}
    (ha : Resources.Adopts (labels pairs i) l.hubs (l.cache i) c) {hub name : String}
    {cm : ConfigMap} (hc : (l.cache i).get? hub name = some cm) : c.get? hub name = some cm := by
  rcases h.adopted ha hub name with he | ⟨found, hf, -, hc'⟩
  · rw [he, hc]
  · have hm := h.mirrored i hub name cm hc
    rw [hf] at hm
    exact hc'.trans hm

/-- Caches that say what is on the hubs, under labels of different pairs, are apart. -/
theorem Held.apart (hne : ∀ i, pairs i ≠ pairs (!i)) (h : Held pairs owner l) : l.Apart := by
  intro i hub name hi
  obtain ⟨cm, hcm⟩ := Option.ne_none_iff_exists'.1 hi
  obtain ⟨found, hf, -, hl⟩ := h.on_hub hcm
  refine Option.eq_none_iff_forall_ne_some.2 fun cm' hcm' => ?_
  obtain ⟨found', hf', -, hl'⟩ := h.on_hub hcm'
  rw [hf] at hf'
  cases hf'
  exact hne i (Labels.pair_eq_of_selects hl hl')

/-- Adopting keeps the caches true. -/
theorem held_adopt (h : Held pairs owner l) {i : Bool} {c : Resources}
    (ha : Resources.Adopts (labels pairs i) l.hubs (l.cache i) c) :
    Held pairs owner (l.adopt i c) := by
  have hentry : ∀ j hub name cm, ((l.adopt i c).cache j).get? hub name = some cm →
      ∃ found, l.hubs.get? hub name = some found ∧ found.normalize = cm ∧
        (labels pairs j).selects found.labelSet := by
    intro j hub name cm hc
    rcases Bool.eq_or_eq_not j i with rfl | rfl
    · rw [cache_adopt_self] at hc
      rcases h.adopted ha hub name with he | ⟨found, hf, hl, hcm⟩
      · exact h.on_hub (he ▸ hc)
      · exact ⟨found, hf, Option.some.inj (hcm.symm.trans hc), hl⟩
    · rw [cache_adopt_not] at hc
      exact h.on_hub hc
  constructor
  · intro j hub name cm hc
    obtain ⟨found, hf, hn, -⟩ := hentry j hub name cm hc
    exact Option.map_eq_some_iff.2 ⟨found, hf, hn⟩
  · intro j hub name cm hc
    obtain ⟨found, -, rfl, hl⟩ := hentry j hub name cm hc
    exact hl
  · exact h.named
  · intro j hub name cm hp
    rcases Bool.eq_or_eq_not j i with rfl | rfl
    · rw [cache_adopt_self]
      exact h.adopts_keeps ha (h.placed j hub name cm hp)
    · rw [cache_adopt_not]
      exact h.placed _ hub name cm hp

/-! ## Settling -/

theorem get?_hubs_settle (l : Ledger) (i : Bool) (next : Resources) (hub name : String) :
    (l.settle i next).hubs.get? hub name =
      if ∃ c ∈ (l.cache i).diff next, c.hub = hub ∧ c.name = name then next.get? hub name
      else l.hubs.get? hub name := by
  rw [settle, Resources.get?_run_toward hub name fun c hc => (Resources.mem_diff.1 hc).1]
  simp

/-- Where a controller neither had anything nor has, a hub is left alone. -/
theorem hubs_settle_of_absent {i : Bool} {next : Resources} {hub name : String}
    (hc : (l.cache i).get? hub name = none) (hn : next.get? hub name = none) :
    (l.settle i next).hubs.get? hub name = l.hubs.get? hub name := by
  rw [get?_hubs_settle, if_neg]
  intro ⟨c, hd, hhub, hname⟩
  subst hhub hname
  obtain ⟨hr, hne⟩ := Resources.mem_diff.1 hd
  exact hne (hc.trans (hn.symm.trans hr))

/-- What a controller had and has no more is taken off the hub. -/
theorem hubs_settle_of_removed {i : Bool} {next : Resources} {hub name : String}
    (hc : (l.cache i).get? hub name ≠ none) (hn : next.get? hub name = none) :
    (l.settle i next).hubs.get? hub name = none := by
  rw [get?_hubs_settle, if_pos, hn]
  exact Resources.exists_mem_diff (hn ▸ hc)

/-- What a controller has is on the hub. -/
theorem hubs_settle_of_placed (h : Held pairs owner l) {i : Bool} {next : Resources}
    {hub name : String} {cm : ConfigMap} (hn : next.get? hub name = some cm)
    (hplain : cm.normalize = cm) :
    ((l.settle i next).hubs.get? hub name).map ConfigMap.normalize = some cm := by
  rw [get?_hubs_settle]
  split
  · rw [hn, Option.map_some, hplain]
  next hno =>
    refine h.mirrored i hub name cm (Decidable.byContradiction fun hne => hno ?_)
    exact Resources.exists_mem_diff (hn ▸ hne)

/-- Settling keeps the caches true as long as they stay apart. -/
theorem held_settle (hne : ∀ i, pairs i ≠ pairs (!i)) (h : Held pairs owner l) {i : Bool}
    {next : Resources} (hr : next.All (RenderedFor (pairs i) (owner · = i)))
    (hapart : ∀ hub name, next.get? hub name ≠ none → (l.cache (!i)).get? hub name = none) :
    Held pairs owner (l.settle i next) := by
  constructor
  · intro j hub name cm hc
    rcases Bool.eq_or_eq_not j i with rfl | rfl
    · rw [cache_settle_self] at hc
      exact hubs_settle_of_placed h hc (hr hub name cm hc).plain
    · rw [cache_settle_not] at hc
      -- the other controller has it, so this one neither had it nor has it
      have hold : (l.cache i).get? hub name = none := by
        have := h.apart hne (!i) hub name (by rw [hc]; simp)
        rwa [Bool.not_not] at this
      have hnew : next.get? hub name = none := Decidable.byContradiction fun hn => by
        rw [hapart hub name hn] at hc
        cases hc
      rw [hubs_settle_of_absent hold hnew]
      exact h.mirrored _ hub name cm hc
  · intro j hub name cm hc
    rcases Bool.eq_or_eq_not j i with rfl | rfl
    · rw [cache_settle_self] at hc
      exact (hr hub name cm hc).labeled
    · rw [cache_settle_not] at hc
      exact h.labeled _ hub name cm hc
  · intro j hub name cm hc hl
    rw [get?_hubs_settle] at hc
    split at hc
    · have hcm := hr hub name cm hc
      rcases Bool.eq_or_eq_not j i with rfl | rfl
      · exact hcm.named
      · exact absurd (Labels.pair_eq_of_selects hcm.labeled hl) (hne i)
    · exact h.named j hub name cm hc hl
  · intro j hub name cm hp
    rcases Bool.eq_or_eq_not j i with rfl | rfl
    · rw [placed_settle_self] at hp
      rwa [cache_settle_self]
    · rw [placed_settle_not] at hp
      rw [cache_settle_not]
      exact h.placed _ hub name cm hp

/-- If both controllers have one ConfigMap cached, each of them with a name of its own, it
holds a key. -/
theorem key_of_clash (h : Held pairs owner l) {i : Bool} {next : Resources}
    (hr : next.All (RenderedFor (pairs i) (owner · = i))) {hub name : String}
    (hn : next.get? hub name ≠ none) (hc : (l.cache (!i)).get? hub name ≠ none) :
    ∃ peer, name = (Purpose.key peer).name := by
  obtain ⟨cm, hcm⟩ := Option.ne_none_iff_exists'.1 hn
  obtain ⟨p, hp, hroute⟩ := (hr hub name cm hcm).named
  obtain ⟨q, hq, hroute'⟩ := h.purpose hc
  have hkey := (ConfigMap.key_of_name hp).1
  rw [Resources.key_of_get? hcm, ← hq] at hkey
  obtain rfl := Purpose.name_injective hkey
  have hnot (route : String) (hr : q.route? = some route) : False := by
    have := (hroute route hr).symm.trans (hroute' route hr)
    simp at this
  cases q with
  | key peer => exact ⟨peer, hq.symm⟩
  | rules | allows | service => exact (hnot _ rfl).elim

/-- If both controllers have one ConfigMap cached, of which one was just put in place, it is
gone once the other controller takes away what it has. -/
theorem not_isolated_of_clash {i : Bool} {next c : Resources} {hub name : String}
    (hn : next.get? hub name ≠ none) (hc : (l.cache (!i)).get? hub name ≠ none)
    (ha : Resources.Adopts (labels pairs (!i)) (l.settle i next).hubs (l.cache (!i)) c) :
    ¬ (((l.settle i next).adopt (!i) c).settle (!i) ∅).Isolated := by
  obtain ⟨cm, hcm⟩ := Option.ne_none_iff_exists'.1 hn
  have hkept : (((l.settle i next).adopt (!i) c).cache (!i)).get? hub name ≠ none := by
    rw [cache_adopt_self]
    rcases ha hub name with he | ⟨found, -, -, -, hc'⟩
    · rwa [he]
    · rw [hc']; simp
  intro hiso
  have hplaced := hiso i hub name cm (by
    have := placed_settle_not ((l.settle i next).adopt (!i) c) (!i) ∅
    rw [Bool.not_not] at this
    rwa [this, placed_adopt, placed_settle_self])
  rw [hubs_settle_of_removed hkept (Resources.get?_empty hub name)] at hplaced
  cases hplaced

end

end Ledger

end HubFederation
