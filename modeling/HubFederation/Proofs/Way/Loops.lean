import Mathlib.Data.List.Chain
import Mathlib.Data.List.Nodup
import HubFederation.Proofs.Way.Rounds

/-!
# Loops of a way

Loops are erased in one walk. It holds the hubs that it keeps and the place of each of them, so that
a hub that comes again is found without a search: what was kept from its place on is dropped, and
all that was dropped loses its place. The places are those of the kept hubs after every step; this
is why no hub is kept twice, and why the walk leaves what `collapse` does.

* `inStep_enter`, `kept_enter`: what one more hub does to the walk.
* `isChain_collapse`: who is left behind a hub came behind it when it came last.
* `collapse_erases_loops`: all that is left, and what becomes of a way without loops.
-/
namespace HubFederation.Way

/-! ## The walk -/

/-- The hubs that are kept so far, and the place of each of them. -/
structure Erasure where
  kept : List String
  places : SortedMap String Nat

namespace Erasure

def start : Erasure := ⟨[], ∅⟩

/-- Drops what was kept from a place on. -/
def cut (e : Erasure) (place : Nat) : Erasure :=
  ⟨e.kept.take place, (e.kept.drop place).foldl SortedMap.erase e.places⟩

def keep (e : Erasure) (hub : String) : Erasure :=
  ⟨e.kept ++ [hub], e.places.insert hub e.kept.length⟩

/-- A hub that was kept before is dropped, and all behind it; then the hub is kept. -/
def enter (e : Erasure) (hub : String) : Erasure :=
  match e.places.get? hub with
  | some place => (e.cut place).keep hub
  | none => e.keep hub

def run (way : List String) : Erasure := way.foldl enter start

/-- The places are those of the hubs that are kept. -/
def InStep (e : Erasure) : Prop :=
  ∀ hub place, e.places.get? hub = some place ↔ e.kept[place]? = some hub

variable {e : Erasure} {hub : String} {place : Nat}

theorem inStep_start : start.InStep := fun hub place => by simp [start]

/-- What has a place is kept once, so that it is not kept elsewhere. -/
theorem InStep.eq_of_getElem? (h : e.InStep) {i j : Nat} (hi : e.kept[i]? = some hub)
    (hj : e.kept[j]? = some hub) : i = j :=
  Option.some.inj (((h hub i).2 hi).symm.trans ((h hub j).2 hj))

theorem InStep.nodup (h : e.InStep) : e.kept.Nodup := by
  refine List.nodup_iff_getElem?_ne_getElem?.2 fun i j hij hj he => ?_
  have hhub := List.getElem?_eq_getElem hj
  exact absurd (h.eq_of_getElem? (he.trans hhub) hhub) (Nat.ne_of_lt hij)

theorem InStep.get?_eq_none_iff (h : e.InStep) : e.places.get? hub = none ↔ hub ∉ e.kept := by
  rw [List.mem_iff_getElem?, Option.eq_none_iff_forall_ne_some, not_exists]
  exact forall_congr' fun place => not_congr (h hub place)

/-- Hubs lose their places one by one. -/
theorem get?_foldl_erase (hubs : List String) (places : SortedMap String Nat) (hub : String) :
    (hubs.foldl SortedMap.erase places).get? hub = if hub ∈ hubs then none else places.get? hub := by
  induction hubs generalizing places with
  | nil => simp
  | cons first hubs ih =>
    rw [List.foldl_cons, ih, SortedMap.get?_erase_ite]
    by_cases hfirst : hub = first <;> simp [hfirst]

theorem inStep_cut (h : e.InStep) (place : Nat) : (e.cut place).InStep := by
  intro hub i
  unfold cut
  simp only [get?_foldl_erase, List.getElem?_take]
  constructor
  · intro hget
    split at hget
    · cases hget
    next hstays =>
      rw [h] at hget
      have hbefore : i < place := by
        refine Nat.lt_of_not_le fun hle => hstays (List.mem_iff_getElem?.2 ⟨i - place, ?_⟩)
        rw [List.getElem?_drop, Nat.add_sub_cancel' hle, hget]
      rw [if_pos hbefore, hget]
  · intro hkept
    split at hkept
    next hbefore =>
      have hstays : hub ∉ e.kept.drop place := by
        intro hmem
        obtain ⟨j, hj⟩ := List.mem_iff_getElem?.1 hmem
        rw [List.getElem?_drop] at hj
        have hsame := h.eq_of_getElem? hkept hj
        omega
      rw [if_neg hstays, (h hub i).2 hkept]
    · cases hkept

theorem inStep_keep (h : e.InStep) (hnew : hub ∉ e.kept) : (e.keep hub).InStep := by
  intro name i
  unfold keep
  simp only [SortedMap.get?_insert_ite, List.getElem?_append]
  by_cases hname : name = hub
  · subst hname
    rw [if_pos rfl]
    constructor
    · intro hi
      cases hi
      simp
    · intro hi
      split at hi
      · exact absurd (List.mem_of_getElem? hi) hnew
      next hle =>
        have hlast := (List.getElem?_eq_some_iff.1 hi).1
        simp only [List.length_singleton] at hlast
        congr 1
        omega
  · rw [if_neg hname, h]
    split
    · rfl
    next hle =>
      rw [List.getElem?_eq_none (Nat.le_of_not_lt hle), List.getElem?_singleton]
      split
      · simp [Ne.symm hname]
      · rfl

/-- Up to its place, nothing is kept but other hubs. -/
theorem InStep.take_eq_takeWhile (h : e.InStep) (hget : e.places.get? hub = some place) :
    e.kept.take place = e.kept.takeWhile (· ≠ hub) := by
  have hkept := (h hub place).1 hget
  obtain ⟨hlt, hhub⟩ := List.getElem?_eq_some_iff.1 hkept
  have hidx : e.kept.findIdx (fun name => !decide (name ≠ hub)) = place := by
    refine (List.findIdx_eq hlt).2 ⟨by simp [hhub], fun j hj => ?_⟩
    have hother : e.kept[j] ≠ hub := fun hsame => Nat.ne_of_lt hj
      (h.eq_of_getElem? (List.getElem?_eq_some_iff.2 ⟨_, hsame⟩) hkept)
    simp [hother]
  rw [List.takeWhile_eq_take_findIdx_not, hidx]

theorem not_mem_takeWhile_ne (hubs : List String) : hub ∉ hubs.takeWhile (· ≠ hub) := fun hmem => by
  simpa using List.mem_takeWhile_imp hmem

/-- One more hub cuts off what was kept from its place on, and comes last. -/
theorem kept_enter (h : e.InStep) (hub : String) :
    (e.enter hub).kept = e.kept.takeWhile (· ≠ hub) ++ [hub] := by
  unfold enter
  cases hget : e.places.get? hub with
  | none =>
    rw [takeWhile_ne_eq_self (h.get?_eq_none_iff.1 hget)]
    rfl
  | some place =>
    rw [← h.take_eq_takeWhile hget]
    rfl

theorem inStep_enter (h : e.InStep) (hub : String) : (e.enter hub).InStep := by
  unfold enter
  cases hget : e.places.get? hub with
  | none => exact inStep_keep h (h.get?_eq_none_iff.1 hget)
  | some place =>
    refine inStep_keep (inStep_cut h place) ?_
    change hub ∉ e.kept.take place
    rw [h.take_eq_takeWhile hget]
    exact not_mem_takeWhile_ne e.kept

end Erasure

/-! ## What is left -/

/-- The walk ends with the places in step, and keeps what `collapse` leaves. -/
theorem inStep_run (way : List String) :
    (Erasure.run way).InStep ∧ (Erasure.run way).kept = collapse way := by
  induction way using List.reverseRecOn with
  | nil => exact ⟨Erasure.inStep_start, rfl⟩
  | append_singleton way hub ih =>
    obtain ⟨hstep, hkept⟩ := ih
    have hrun : Erasure.run (way ++ [hub]) = (Erasure.run way).enter hub := by
      unfold Erasure.run
      rw [List.foldl_append, List.foldl_cons, List.foldl_nil]
    rw [hrun, Erasure.kept_enter hstep, collapse_concat, hkept]
    exact ⟨Erasure.inStep_enter hstep hub, rfl⟩

theorem nodup_collapse (way : List String) : (collapse way).Nodup :=
  (inStep_run way).2 ▸ (inStep_run way).1.nodup

theorem getLast?_collapse (way : List String) : (collapse way).getLast? = way.getLast? := by
  rcases List.eq_nil_or_concat way with rfl | ⟨way, hub, rfl⟩
  · rfl
  · rw [List.concat_eq_append, collapse_concat, List.getLast?_concat, List.getLast?_concat]

/-- The first hub is never dropped for good. -/
theorem head?_collapse (way : List String) : (collapse way).head? = way.head? := by
  induction way using List.reverseRecOn with
  | nil => rfl
  | append_singleton way hub ih =>
    rw [collapse_concat, List.head?_append, List.head?_append, ← ih]
    cases collapse way with
    | nil => rfl
    | cons first rest =>
      by_cases hfirst : first = hub <;> simp [hfirst]

/-- `b` comes right behind `a` where `a` comes last. -/
def Follows (way : List String) (a b : String) : Prop :=
  ∃ before after, way = before ++ a :: b :: after ∧ a ∉ b :: after

theorem Follows.concat {way : List String} {a b hub : String} (h : Follows way a b)
    (hne : a ≠ hub) : Follows (way ++ [hub]) a b := by
  obtain ⟨before, after, rfl, hlast⟩ := h
  refine ⟨before, after ++ [hub], by simp, ?_⟩
  simpa [hne] using hlast

theorem follows_concat {way : List String} {a hub : String} (h : way.getLast? = some a)
    (hne : a ≠ hub) : Follows (way ++ [hub]) a hub := by
  obtain ⟨before, rfl⟩ := List.getLast?_eq_some_iff.1 h
  exact ⟨before, [], by simp, by simpa using hne⟩

/-- Neighbours that are left were neighbours where the first of them came last. -/
theorem isChain_collapse (way : List String) : (collapse way).IsChain (Follows way) := by
  induction way using List.reverseRecOn with
  | nil => exact .nil
  | append_singleton way hub ih =>
    rw [collapse_concat]
    have hother {a : String} (hmem : a ∈ (collapse way).takeWhile (· ≠ hub)) : a ≠ hub := by
      rintro rfl
      exact Erasure.not_mem_takeWhile_ne _ hmem
    have hsplit := List.takeWhile_append_dropWhile (p := (· ≠ hub)) (l := collapse way)
    have hleft : ((collapse way).takeWhile (· ≠ hub)).IsChain (Follows way) :=
      ih.prefix (List.takeWhile_prefix _)
    refine List.isChain_append.2 ⟨?_, .singleton hub, fun a ha b hb => ?_⟩
    · exact hleft.imp_of_mem_imp fun a b hmem _ hfollows => hfollows.concat (hother hmem)
    · have hne : a ≠ hub := hother (List.mem_of_getLast? ha)
      obtain rfl : hub = b := by simpa using hb
      cases hdropped : (collapse way).dropWhile (· ≠ hub) with
      | nil =>
        -- The hub is new, and comes behind the last one.
        rw [hdropped, List.append_nil] at hsplit
        rw [hsplit, getLast?_collapse] at ha
        exact follows_concat ha hne
      | cons first rest =>
        -- The hub stood right here before.
        have hfirst : first = hub := by
          have hstop := List.head?_dropWhile_not (· ≠ hub) (collapse way)
          rw [hdropped] at hstop
          simpa using hstop
        rw [← hsplit, hdropped, hfirst] at ih
        exact ((List.isChain_append.1 ih).2.2 a ha hub rfl).concat hne

/-- The walk that holds places keeps them in step, and comes to what `collapse` leaves: each hub
once, from the first hub of the way to the last one. Neighbours that are left were neighbours on the
way, where the first of them came last. A way without repeats is left as it is. -/
theorem collapse_erases_loops (way : List String) :
    ((Erasure.run way).InStep ∧ (Erasure.run way).kept = collapse way) ∧
    (collapse way).Nodup ∧
    (collapse way).head? = way.head? ∧ (collapse way).getLast? = way.getLast? ∧
    (way.Nodup → collapse way = way) ∧
    ∀ before a b after, collapse way = before ++ a :: b :: after →
      ∃ before' after', way = before' ++ a :: b :: after' ∧ a ∉ b :: after' := by
  refine ⟨inStep_run way, nodup_collapse way, head?_collapse way, getLast?_collapse way,
    collapse_of_nodup, fun before a b after hsplit => ?_⟩
  have hchain := isChain_collapse way
  rw [hsplit] at hchain
  exact (List.isChain_append_cons_cons.1 hchain).2.1

/-- A way that comes back to `b`, then to `a`, then to `e`, and last to a hub of the loop it left. -/
def tangled : List String := ["a", "b", "c", "b", "d", "a", "e", "f", "e", "g", "f", "h"]

/-- `g` is left behind `e`, as it came there when `e` came last; what is left has no loops. -/
theorem collapse_erases_loops_tangled :
    let left := ["a", "e", "g", "f", "h"]
    collapse tangled = left ∧
    (∃ before after, tangled = before ++ "e" :: "g" :: after ∧ "e" ∉ "g" :: after) ∧
    left.Nodup ∧ collapse left = left := by
  intro left
  have hleft : collapse tangled = left := by decide +kernel
  have hnodup : left.Nodup := by decide
  exact ⟨hleft, (collapse_erases_loops tangled).2.2.2.2.2 ["a"] "e" "g" ["f", "h"] hleft, hnodup,
    (collapse_erases_loops left).2.2.2.2.1 hnodup⟩

end HubFederation.Way
