import Mathlib.Logic.Function.Basic
import HubFederation.Proofs.Federation.Jobs

/-!
# The tasks of a pair, one after the other

A pair may get many tasks in its time. The latest one counts for the pair as long as it is open,
and when it is closed its successor is told to wait for it. A task may be closed while it still
waits itself, so what its successor waits for may not have begun. While any task of a pair is not
done, each later one waits for that one or for one that came after it.

* `Lineage`: how the tasks of every pair hang together.
* `Changes`, `Adds`: a task changes, and a task is added.
* `Lineage.close`, `Lineage.spawn`, `Lineage.poll`: whatever happens to a task, they hang together
  as before.
-/
namespace HubFederation

/-- What counts of a task here. -/
structure Face where
  pair : String × String
  stage : Stage
  closed : Bool

def Task.face (t : Task) : Face := ⟨t.mapping.pair, t.stage, t.closed⟩

/-- A new task of a pair that waits for `previous`. -/
def Face.fresh (pair : String × String) (previous : Option Nat) : Face :=
  ⟨pair, .starting previous, false⟩

/-! ## Tasks that change -/

/-- A task remains one of its pair, is not undone, and does not start anew. -/
structure Face.Ages (x x' : Face) : Prop where
  pair : x'.pair = x.pair
  done : x.stage = .done → x'.stage = .done
  starting : ∀ previous, x'.stage = .starting previous → x.stage = .starting previous

/-- The tasks of `face'` are those of `face`, to each of which happened what `R` says. -/
structure Changes (R : Nat → Face → Face → Prop) (face face' : Nat → Option Face) : Prop where
  was : ∀ {i x'}, face' i = some x' → ∃ x, face i = some x ∧ R i x x'
  still : ∀ {i x}, face i = some x → ∃ x', face' i = some x' ∧ R i x x'

/-- One task changed. -/
theorem changes_update {R : Nat → Face → Face → Prop} {face : Nat → Option Face} {j : Nat}
    {a a' : Face} (ha : face j = some a) (hself : R j a a') (hother : ∀ i x, i ≠ j → R i x x) :
    Changes R face (Function.update face j (some a')) := by
  constructor
  · intro i x' hx
    by_cases hi : i = j
    · subst hi
      rw [Function.update_self] at hx
      cases hx
      exact ⟨a, ha, hself⟩
    · rw [Function.update_of_ne hi] at hx
      exact ⟨x', hx, hother i x' hi⟩
  · intro i x hx
    by_cases hi : i = j
    · subst hi
      rw [ha] at hx
      cases hx
      exact ⟨a', Function.update_self .., hself⟩
    · exact ⟨x, by rw [Function.update_of_ne hi, hx], hother i x hi⟩

/-! ## One task after the other -/

/-- How tasks hang together, of which `mappings` holds the open ones and `closing` those that
successors have to wait for. -/
structure Lineage (face : Nat → Option Face) (mappings closing : SortedMap (String × String) Nat) :
    Prop where
  /-- A task waits for an earlier one of its pair. -/
  previous : ∀ {j b p}, face j = some b → b.stage = .starting (some p) →
    p < j ∧ ∃ a, face p = some a ∧ a.pair = b.pair
  /-- A task waits as long as an earlier one of its pair is not done. -/
  waits : ∀ {i j a b}, i < j → face i = some a → face j = some b → a.pair = b.pair →
    a.stage ≠ .done → ∃ p, b.stage = .starting (some p) ∧ i ≤ p
  latest : ∀ {i a c}, face i = some a → mappings.get? a.pair = some c → i ≤ c
  opened : ∀ {pair c}, mappings.get? pair = some c →
    ∃ a, face c = some a ∧ a.closed = false ∧ a.pair = pair
  current : ∀ {i a}, face i = some a → a.closed = false → mappings.get? a.pair = some i
  handed : ∀ {pair c}, closing.get? pair = some c → ∃ a, face c = some a ∧ a.pair = pair
  /-- A pair without an open task remembers its latest one, unless that is done. -/
  remembered : ∀ {i a}, face i = some a → a.stage ≠ .done → mappings.get? a.pair = none →
    ∃ c, closing.get? a.pair = some c ∧ i ≤ c

variable {face face' : Nat → Option Face} {mappings closing : SortedMap (String × String) Nat}
  {pair : String × String}

theorem lineage_empty : Lineage (fun _ => none) ∅ ∅ :=
  ⟨(nomatch ·), fun _ => (nomatch ·), (nomatch ·), (nomatch ·), (nomatch ·), (nomatch ·),
    (nomatch ·)⟩

namespace Lineage

/-- A task is not done if an earlier one of its pair is not. -/
theorem not_done (h : Lineage face mappings closing) {i j : Nat} {a b : Face} (hle : i ≤ j)
    (ha : face i = some a) (hb : face j = some b) (hpair : a.pair = b.pair)
    (hdone : a.stage ≠ .done) : b.stage ≠ .done := by
  rcases Nat.lt_or_eq_of_le hle with hlt | rfl
  · obtain ⟨p, hstage, -⟩ := h.waits hlt ha hb hpair hdone
    rw [hstage]
    exact (nomatch ·)
  · rw [ha] at hb
    cases hb
    exact hdone

/-- Tasks that are done need not be remembered. -/
theorem prune (h : Lineage face mappings closing) {keep : String × String → Nat → Bool}
    (hkeep : ∀ pair c a, face c = some a → a.stage ≠ .done → keep pair c = true) :
    Lineage face mappings (closing.filter keep) := by
  refine { h with handed := fun hc => ?_, remembered := fun ha hdone hnone => ?_ }
  · rw [SortedMap.get?_filter, Option.filter_eq_some_iff] at hc
    exact h.handed hc.1
  · obtain ⟨c, hc, hle⟩ := h.remembered ha hdone hnone
    obtain ⟨b, hb, hpair⟩ := h.handed hc
    refine ⟨c, ?_, hle⟩
    rw [SortedMap.get?_filter, hc, Option.filter_some,
      if_pos (hkeep _ c b hb (h.not_done hle ha hb hpair.symm hdone))]

/-! ### Tasks that age -/

section
variable {R : Nat → Face → Face → Prop} (h : Lineage face mappings closing)
  (hch : Changes R face face') (hages : ∀ {i x x'}, R i x x' → x.Ages x')
include h hch hages

theorem previous_of_changes {j p : Nat} {b : Face} (hb : face' j = some b)
    (hstage : b.stage = .starting (some p)) : p < j ∧ ∃ a, face' p = some a ∧ a.pair = b.pair := by
  obtain ⟨y, hy, hyb⟩ := hch.was hb
  obtain ⟨hlt, z, hz, hzp⟩ := h.previous hy ((hages hyb).starting _ hstage)
  obtain ⟨x, hx, hzx⟩ := hch.still hz
  exact ⟨hlt, x, hx, by rw [(hages hzx).pair, hzp, (hages hyb).pair]⟩

theorem latest_of_changes {i c : Nat} {a : Face} (ha : face' i = some a)
    (hget : mappings.get? a.pair = some c) : i ≤ c := by
  obtain ⟨y, hy, hya⟩ := hch.was ha
  rw [(hages hya).pair] at hget
  exact h.latest hy hget

theorem handed_of_changes {c : Nat} (hget : closing.get? pair = some c) :
    ∃ a, face' c = some a ∧ a.pair = pair := by
  obtain ⟨y, hy, hyp⟩ := h.handed hget
  obtain ⟨x, hx, hyx⟩ := hch.still hy
  exact ⟨x, hx, (hages hyx).pair.trans hyp⟩

theorem remembered_of_changes {i : Nat} {a : Face} (ha : face' i = some a)
    (hdone : a.stage ≠ .done) (hnone : mappings.get? a.pair = none) :
    ∃ c, closing.get? a.pair = some c ∧ i ≤ c := by
  obtain ⟨y, hy, hya⟩ := hch.was ha
  rw [(hages hya).pair] at hnone ⊢
  exact h.remembered hy (fun hd => hdone ((hages hya).done hd)) hnone

end

/-! ### A task is closed -/

/-- What becomes of a task when the task `c` is closed. -/
structure Closing (c i : Nat) (x x' : Face) : Prop where
  pair : x'.pair = x.pair
  stage : x'.stage = x.stage
  closed : x'.closed = false → i ≠ c
  same : i ≠ c → x' = x

theorem closing_self (c : Nat) (a : Face) : Closing c c a { a with closed := true } :=
  ⟨rfl, rfl, (nomatch ·), fun hne => absurd rfl hne⟩

theorem closing_of_ne {c i : Nat} (hi : i ≠ c) (x : Face) : Closing c i x x :=
  ⟨rfl, rfl, fun _ => hi, fun _ => rfl⟩

theorem Closing.ages {c i : Nat} {x x' : Face} (h : Closing c i x x') : x.Ages x' :=
  ⟨h.pair, h.stage.trans, fun _ => h.stage.symm.trans⟩

section
variable (h : Lineage face mappings closing) {c : Nat} (hch : Changes (Closing c) face face')
include h hch

/-- Tasks wait as they did. -/
theorem waits_of_closing {i j : Nat} {a b : Face} (hlt : i < j) (ha : face' i = some a)
    (hb : face' j = some b) (hp : a.pair = b.pair) (hdone : a.stage ≠ .done) :
    ∃ p, b.stage = .starting (some p) ∧ i ≤ p := by
  obtain ⟨y, hy, hya⟩ := hch.was ha
  obtain ⟨z, hz, hzb⟩ := hch.was hb
  rw [hya.pair, hzb.pair] at hp
  rw [hya.stage] at hdone
  rw [hzb.stage]
  exact h.waits hlt hy hz hp hdone

variable (hc : mappings.get? pair = some c)
include hc

/-- The tasks of other pairs stay open. -/
theorem opened_of_closing {pair' : String × String} {c' : Nat}
    (hget : (mappings.erase pair).get? pair' = some c') :
    ∃ a, face' c' = some a ∧ a.closed = false ∧ a.pair = pair' := by
  obtain ⟨hne, hget⟩ := SortedMap.get?_erase_eq_some.1 hget
  obtain ⟨y, hy, hopen, hyp⟩ := h.opened hget
  have hi : c' ≠ c := by
    rintro rfl
    obtain ⟨a, ha, -, hpair⟩ := h.opened hc
    cases ha.symm.trans hy
    exact hne (hyp.symm.trans hpair)
  obtain ⟨x, hx, hyx⟩ := hch.still hy
  rw [hyx.same hi] at hx
  exact ⟨y, hx, hopen, hyp⟩

/-- A task that is open is not the one that was closed, so it is of another pair. -/
theorem current_of_closing {i : Nat} {a : Face} (ha : face' i = some a) (hopen : a.closed = false) :
    (mappings.erase pair).get? a.pair = some i := by
  obtain ⟨y, hy, hya⟩ := hch.was ha
  have hi := hya.closed hopen
  rw [hya.same hi] at hopen ⊢
  have hget := h.current hy hopen
  refine SortedMap.get?_erase_eq_some.2 ⟨fun hp => ?_, hget⟩
  rw [hp, hc] at hget
  exact hi (Option.some.inj hget).symm

theorem handed_of_closing {pair' : String × String} {c' : Nat}
    (hget : (closing.insert pair c).get? pair' = some c') :
    ∃ a, face' c' = some a ∧ a.pair = pair' := by
  rcases SortedMap.get?_insert_eq_some.1 hget with ⟨rfl, rfl⟩ | ⟨-, hget⟩
  · obtain ⟨y, hy, -, hyp⟩ := h.opened hc
    obtain ⟨x, hx, hyx⟩ := hch.still hy
    exact ⟨x, hx, hyx.pair.trans hyp⟩
  · exact h.handed_of_changes hch Closing.ages hget

/-- The pair remembers the task that was closed, and it had no later one. -/
theorem remembered_of_closing {i : Nat} {a : Face} (ha : face' i = some a)
    (hdone : a.stage ≠ .done) (hnone : (mappings.erase pair).get? a.pair = none) :
    ∃ c', (closing.insert pair c).get? a.pair = some c' ∧ i ≤ c' := by
  by_cases hne : a.pair = pair
  · rw [hne, SortedMap.get?_insert_self]
    exact ⟨c, rfl, h.latest_of_changes hch Closing.ages ha (hne ▸ hc)⟩
  · rw [SortedMap.get?_erase_of_ne _ hne] at hnone
    rw [SortedMap.get?_insert_of_ne _ _ hne]
    exact h.remembered_of_changes hch Closing.ages ha hdone hnone

end

/-- The open task of a pair is closed. -/
theorem close (h : Lineage face mappings closing) {c : Nat} {a : Face}
    (hc : mappings.get? pair = some c) (ha : face c = some a) :
    Lineage (Function.update face c (some { a with closed := true })) (mappings.erase pair)
      (closing.insert pair c) := by
  have hch := changes_update ha (closing_self c a) fun _ x hi => closing_of_ne hi x
  exact
    { previous := h.previous_of_changes hch Closing.ages
      waits := h.waits_of_closing hch
      latest := fun hx hget =>
        h.latest_of_changes hch Closing.ages hx (SortedMap.get?_erase_eq_some.1 hget).2
      opened := h.opened_of_closing hch hc
      current := h.current_of_closing hch hc
      handed := h.handed_of_closing hch hc
      remembered := h.remembered_of_closing hch hc }

/-! ### A task is opened -/

/-- The tasks of `face'` are those of `face`, before the task `n`, and that one. -/
structure Adds (n : Nat) (b : Face) (face face' : Nat → Option Face) : Prop where
  was : ∀ {i x}, face' i = some x → (i < n ∧ face i = some x) ∨ (i = n ∧ x = b)
  still : ∀ {i x}, face i = some x → i < n ∧ face' i = some x
  added : face' n = some b

theorem adds_update {n : Nat} (hn : ∀ i a, face i = some a → i < n) (b : Face) :
    Adds n b face (Function.update face n (some b)) := by
  refine ⟨fun {i x} hx => ?_, fun {i x} hx => ⟨hn i x hx, ?_⟩, Function.update_self ..⟩
  · by_cases hi : i = n
    · rw [hi, Function.update_self] at hx
      exact .inr ⟨hi, (Option.some.inj hx).symm⟩
    · rw [Function.update_of_ne hi] at hx
      exact .inl ⟨hn i x hx, hx⟩
  · rw [Function.update_of_ne (Nat.ne_of_lt (hn i x hx)), hx]

section
variable (h : Lineage face mappings closing) {n : Nat}
  (hadds : Adds n (.fresh pair (closing.get? pair)) face face')
include h hadds

/-- What a new task waits for is there already. -/
theorem previous_of_adds {j p : Nat} {b : Face} (hb : face' j = some b)
    (hstage : b.stage = .starting (some p)) : p < j ∧ ∃ a, face' p = some a ∧ a.pair = b.pair := by
  rcases hadds.was hb with ⟨-, hb⟩ | ⟨rfl, rfl⟩
  · obtain ⟨hlt, z, hz, hzp⟩ := h.previous hb hstage
    exact ⟨hlt, z, (hadds.still hz).2, hzp⟩
  · obtain ⟨z, hz, hzp⟩ := h.handed (Stage.starting.inj hstage)
    exact ⟨(hadds.still hz).1, z, (hadds.still hz).2, hzp⟩

/-- A new task waits for the task that its pair remembers, and that is the latest one. -/
theorem waits_of_adds (hnone : mappings.get? pair = none) {i j : Nat} {a b : Face} (hlt : i < j)
    (ha : face' i = some a) (hb : face' j = some b) (hp : a.pair = b.pair)
    (hdone : a.stage ≠ .done) : ∃ p, b.stage = .starting (some p) ∧ i ≤ p := by
  have hj : j ≤ n := (hadds.was hb).elim (fun h => Nat.le_of_lt h.1) fun h => Nat.le_of_eq h.1
  have ha := ((hadds.was ha).resolve_right fun h => by omega).2
  rcases hadds.was hb with ⟨-, hb⟩ | ⟨rfl, rfl⟩
  · exact h.waits hlt ha hb hp hdone
  · obtain ⟨c, hc, hle⟩ := h.remembered ha hdone (hp ▸ hnone)
    exact ⟨c, congrArg Stage.starting (by rw [← hc, hp]; rfl), hle⟩

theorem latest_of_adds {i c : Nat} {a : Face} (ha : face' i = some a)
    (hget : (mappings.insert pair n).get? a.pair = some c) : i ≤ c := by
  rcases SortedMap.get?_insert_eq_some.1 hget with ⟨-, rfl⟩ | ⟨hne, hget⟩
  · exact (hadds.was ha).elim (fun h => Nat.le_of_lt h.1) fun h => Nat.le_of_eq h.1
  · rcases hadds.was ha with ⟨-, ha⟩ | ⟨-, rfl⟩
    · exact h.latest ha hget
    · exact absurd rfl hne

theorem opened_of_adds {pair' : String × String} {c : Nat}
    (hget : (mappings.insert pair n).get? pair' = some c) :
    ∃ a, face' c = some a ∧ a.closed = false ∧ a.pair = pair' := by
  rcases SortedMap.get?_insert_eq_some.1 hget with ⟨rfl, rfl⟩ | ⟨-, hget⟩
  · exact ⟨_, hadds.added, rfl, rfl⟩
  · obtain ⟨y, hy, hopen, hyp⟩ := h.opened hget
    exact ⟨y, (hadds.still hy).2, hopen, hyp⟩

/-- The pair had no open task before. -/
theorem current_of_adds (hnone : mappings.get? pair = none) {i : Nat} {a : Face}
    (ha : face' i = some a) (hopen : a.closed = false) :
    (mappings.insert pair n).get? a.pair = some i := by
  rcases hadds.was ha with ⟨-, ha⟩ | ⟨rfl, rfl⟩
  · have hget := h.current ha hopen
    refine SortedMap.get?_insert_eq_some.2 (.inr ⟨fun hp => ?_, hget⟩)
    rw [hp, hnone] at hget
    cases hget
  · exact SortedMap.get?_insert_self ..

theorem handed_of_adds {pair' : String × String} {c : Nat}
    (hget : (closing.erase pair).get? pair' = some c) : ∃ a, face' c = some a ∧ a.pair = pair' := by
  obtain ⟨y, hy, hyp⟩ := h.handed (SortedMap.get?_erase_eq_some.1 hget).2
  exact ⟨y, (hadds.still hy).2, hyp⟩

theorem remembered_of_adds {i : Nat} {a : Face} (ha : face' i = some a) (hdone : a.stage ≠ .done)
    (hnone : (mappings.insert pair n).get? a.pair = none) :
    ∃ c, (closing.erase pair).get? a.pair = some c ∧ i ≤ c := by
  have hne : a.pair ≠ pair := by
    intro hp
    rw [hp, SortedMap.get?_insert_self] at hnone
    cases hnone
  rw [SortedMap.get?_insert_of_ne _ _ hne] at hnone
  rw [SortedMap.get?_erase_of_ne _ hne]
  rcases hadds.was ha with ⟨-, ha⟩ | ⟨-, rfl⟩
  · exact h.remembered ha hdone hnone
  · exact absurd rfl hne

end

/-- A pair that has no open task gets one, which waits for the one that it remembers. -/
theorem spawn (h : Lineage face mappings closing) {n : Nat} (hn : ∀ i a, face i = some a → i < n)
    (hnone : mappings.get? pair = none) :
    Lineage (Function.update face n (some (.fresh pair (closing.get? pair))))
      (mappings.insert pair n) (closing.erase pair) := by
  have hadds := adds_update hn (.fresh pair (closing.get? pair))
  exact
    { previous := h.previous_of_adds hadds
      waits := h.waits_of_adds hadds hnone
      latest := h.latest_of_adds hadds
      opened := h.opened_of_adds hadds
      current := h.current_of_adds hadds hnone
      handed := h.handed_of_adds hadds
      remembered := h.remembered_of_adds hadds }

/-! ### A task is polled -/

/-- What becomes of a task that does what it has to do now: it does not change if it waits for a
task that is not done, it never starts anew, and never becomes undone. -/
structure Working (face : Nat → Option Face) (x x' : Face) : Prop where
  pair : x'.pair = x.pair
  closed : x'.closed = x.closed
  done : x.stage = .done → x'.stage = .done
  starting : ∀ previous, x'.stage = .starting previous → x' = x
  blocked : ∀ p b, x.stage = .starting (some p) → face p = some b → b.stage ≠ .done → x' = x

theorem working_refl (face : Nat → Option Face) (x : Face) : Working face x x :=
  ⟨rfl, rfl, id, fun _ _ => rfl, fun _ _ _ _ _ => rfl⟩

theorem Working.ages {x x' : Face} (h : Working face x x') : x.Ages x' := by
  refine ⟨h.pair, h.done, fun previous hs => ?_⟩
  rwa [h.starting previous hs] at hs

section
variable (h : Lineage face mappings closing) (hch : Changes (fun _ => Working face) face face')
include h hch

/-- What a task waits for is not done either, so it does not begin. -/
theorem waits_of_working {i j : Nat} {a b : Face} (hlt : i < j) (ha : face' i = some a)
    (hb : face' j = some b) (hp : a.pair = b.pair) (hdone : a.stage ≠ .done) :
    ∃ p, b.stage = .starting (some p) ∧ i ≤ p := by
  obtain ⟨y, hy, hya⟩ := hch.was ha
  obtain ⟨z, hz, hzb⟩ := hch.was hb
  rw [hya.pair, hzb.pair] at hp
  have hundone : y.stage ≠ .done := fun hd => hdone (hya.done hd)
  obtain ⟨p, hstage, hle⟩ := h.waits hlt hy hz hp hundone
  obtain ⟨-, x, hx, hxp⟩ := h.previous hz hstage
  rw [hzb.blocked p x hstage hx (h.not_done hle hy hx (hp.trans hxp.symm) hundone)]
  exact ⟨p, hstage, hle⟩

theorem opened_of_working {c : Nat} (hget : mappings.get? pair = some c) :
    ∃ a, face' c = some a ∧ a.closed = false ∧ a.pair = pair := by
  obtain ⟨y, hy, hopen, hyp⟩ := h.opened hget
  obtain ⟨x, hx, hyx⟩ := hch.still hy
  exact ⟨x, hx, hyx.closed.trans hopen, hyx.pair.trans hyp⟩

theorem current_of_working {i : Nat} {a : Face} (ha : face' i = some a) (hopen : a.closed = false) :
    mappings.get? a.pair = some i := by
  obtain ⟨y, hy, hya⟩ := hch.was ha
  rw [hya.pair]
  exact h.current hy (hya.closed ▸ hopen)

end

/-- A task does what it has to do now. -/
theorem poll (h : Lineage face mappings closing) {j : Nat} {a a' : Face} (ha : face j = some a)
    (hwork : Working face a a') : Lineage (Function.update face j (some a')) mappings closing := by
  have hch : Changes (fun _ => Working face) face (Function.update face j (some a')) :=
    changes_update ha hwork fun _ x _ => working_refl face x
  exact
    { previous := h.previous_of_changes hch Working.ages
      waits := h.waits_of_working hch
      latest := h.latest_of_changes hch Working.ages
      opened := h.opened_of_working hch
      current := h.current_of_working hch
      handed := h.handed_of_changes hch Working.ages
      remembered := h.remembered_of_changes hch Working.ages }

end Lineage

end HubFederation
