import Mathlib.Data.List.Chain
import HubFederation.Proofs.Way.Rounds

/-!
# Ways follow the hints

A solved way holds every hub that two neighbours on it hint at, and no hub without a hint: each one
between its ends was hinted at by a hub before it and one behind it. Hints depend on who asks, so
both are about the hubs that a hint was read for. The loop leaves a pair behind once all that it
hints at is on the way; nothing is entered between the two from then on. A hub is entered between
two that hint at it, and it stays between them.

* `followed_pass`, `followed_enter`: what a round keeps.
* `followed_expand`: what the loop leaves.
* `solve_follows_hints`: the solved way is complete and justified.
-/
namespace HubFederation.Way

variable (gateway : Gateways)

/-- Every hub that two neighbours hint at is on the way. -/
def Answered (way : List String) (a b : String) : Prop :=
  hints (gateway a b) (gateway b a) ⊆ way

/-- A hub before this one and one behind it hint at it. -/
def Justified (way : List String) (hub : String) : Prop :=
  ∃ a b, [a, hub, b].Sublist way ∧ hub ∈ hints (gateway a b) (gateway b a)

/-- The pairs that the walk has left behind are answered, and the hubs between the ends of the way
are justified. -/
structure Followed (exporting importing : String) (passed : List String) (here : String)
    (ahead : List String) : Prop where
  answered : (passed.reverse ++ [here]).IsChain
    (Answered gateway (passed.reverse ++ here :: ahead))
  justified : ∀ hub ∈ passed.reverse ++ here :: ahead,
    hub = exporting ∨ hub = importing ∨ Justified gateway (passed.reverse ++ here :: ahead) hub

variable {gateway}

theorem Answered.mono {way way' : List String} {a b : String} (h : Answered gateway way a b)
    (hs : way ⊆ way') : Answered gateway way' a b := fun _ hhint => hs (h hhint)

theorem Justified.mono {way way' : List String} {hub : String} (h : Justified gateway way hub)
    (hs : way.Sublist way') : Justified gateway way' hub := by
  obtain ⟨a, b, hbetween, hhint⟩ := h
  exact ⟨a, b, hbetween.trans hs, hhint⟩

section
variable {exporting importing here next : String} {passed rest : List String}

variable (gateway exporting importing) in
theorem followed_start : Followed gateway exporting importing [] exporting [importing] := by
  refine ⟨.singleton _, fun hub hmem => ?_⟩
  rcases List.mem_pair.1 hmem with rfl | rfl
  · exact .inl rfl
  · exact .inr (.inl rfl)

/-- A pair without a fresh hint is left behind. -/
theorem followed_pass (h : Followed gateway exporting importing passed here (next :: rest))
    (hfresh : fresh gateway (passed ++ here :: next :: rest) here next = []) :
    Followed gateway exporting importing (here :: passed) next rest := by
  have hway : (here :: passed).reverse ++ next :: rest =
      passed.reverse ++ here :: next :: rest := by simp
  refine ⟨?_, hway ▸ h.justified⟩
  have hpair : Answered gateway (passed.reverse ++ here :: next :: rest) here next := by
    intro hub hhint
    have hnone : hub ∉ fresh gateway (passed ++ here :: next :: rest) here next :=
      hfresh ▸ List.not_mem_nil
    have hold : hub ∈ passed ++ here :: next :: rest :=
      Decidable.not_not.1 fun hnew => hnone (mem_fresh.2 ⟨hhint, hnew⟩)
    simpa using hold
  rw [hway, List.reverse_cons, List.append_assoc, List.singleton_append]
  exact List.isChain_append_cons_cons.2 ⟨h.answered, hpair, .singleton next⟩

/-- The hubs that two neighbours hint at are entered between them. -/
theorem followed_enter (h : Followed gateway exporting importing passed here (next :: rest))
    {entered : List String}
    (hentered : ∀ hub ∈ entered, hub ∈ hints (gateway here next) (gateway next here)) :
    Followed gateway exporting importing passed here (entered ++ next :: rest) := by
  have hgrown : (passed.reverse ++ here :: next :: rest).Sublist
      (passed.reverse ++ here :: (entered ++ next :: rest)) :=
    ((List.sublist_append_right entered (next :: rest)).cons_cons here).append_left _
  refine ⟨h.answered.imp fun _ _ hp => hp.mono hgrown.subset, fun hub hmem => ?_⟩
  by_cases hnew : hub ∈ entered
  · refine .inr (.inr ⟨here, next, ?_, hentered hub hnew⟩)
    have hbetween : [hub, next].Sublist (entered ++ next :: rest) :=
      (List.singleton_sublist.2 hnew).append (List.singleton_sublist.2 (List.mem_cons_self ..))
    exact (hbetween.cons_cons here).trans (List.sublist_append_right ..)
  · have hold : hub ∈ passed.reverse ++ here :: next :: rest := by
      simp only [List.mem_append, List.mem_cons] at hmem ⊢
      tauto
    exact (h.justified hub hold).imp_right (Or.imp_right (·.mono hgrown))

end

/-- What the loop leaves: every pair is answered, every hub between the ends is justified. -/
theorem followed_expand (net : Network) {exporting importing : String} (passed : List String)
    (here : String) (ahead : List String)
    (h : Followed net.gateway exporting importing passed here ahead) :
    (expand net passed here ahead).IsChain (Answered net.gateway (expand net passed here ahead)) ∧
    ∀ hub ∈ expand net passed here ahead, hub = exporting ∨ hub = importing ∨
      Justified net.gateway (expand net passed here ahead) hub := by
  fun_induction expand net passed here ahead with
  | case1 passed here =>
    rw [List.reverse_cons]
    exact ⟨h.answered, h.justified⟩
  | case2 passed here next rest way hfresh ih => exact ih (followed_pass h hfresh)
  | case3 passed here next rest way name names hfresh ih =>
    exact ih (followed_enter h fun hub hmem => (mem_fresh.1 (hfresh ▸ hmem)).1)

/-- On a way without repeats, what stands before and behind a hub does so at its only place. -/
theorem mem_of_between {before after : List String} {a hub b : String}
    (hbefore : hub ∉ before) (hafter : hub ∉ after)
    (h : [a, hub, b].Sublist (before ++ hub :: after)) : a ∈ before ∧ b ∈ after := by
  obtain ⟨l, r, hlr, hl, hr⟩ := List.sublist_append_iff.1 h
  cases l with
  | nil =>
    rw [List.nil_append] at hlr
    exact absurd ((hlr ▸ hr).tail.subset (List.mem_cons_self ..)) hafter
  | cons a' l =>
    rw [List.cons_append, List.cons.injEq] at hlr
    obtain ⟨rfl, hlr⟩ := hlr
    cases l with
    | nil =>
      rw [List.nil_append] at hlr
      exact ⟨hl.subset (List.mem_cons_self ..), (hlr ▸ hr).tail.subset (List.mem_cons_self ..)⟩
    | cons hub' l =>
      rw [List.cons_append, List.cons.injEq] at hlr
      rw [← hlr.1] at hl
      exact absurd (hl.subset (List.mem_cons_of_mem _ (List.mem_cons_self ..))) hbefore

/-- On a way without repeats, a hub that is none of the ends was hinted at by hubs on both sides. -/
theorem hinted_of_justified {exporting importing hub : String} {before after : List String}
    (nodup : (before ++ hub :: after).Nodup)
    (hhead : (before ++ hub :: after).head? = some exporting)
    (hlast : (before ++ hub :: after).getLast? = some importing)
    (hne : before ≠ []) (hne' : after ≠ [])
    (h : hub = exporting ∨ hub = importing ∨ Justified gateway (before ++ hub :: after) hub) :
    ∃ a ∈ before, ∃ b ∈ after, hub ∈ hints (gateway a b) (gateway b a) := by
  obtain ⟨-, hafter, hdisjoint⟩ := List.nodup_append.1 nodup
  have hnotBefore : hub ∉ before := fun hmem => hdisjoint hub hmem hub (List.mem_cons_self ..) rfl
  have hnotAfter : hub ∉ after := (List.nodup_cons.1 hafter).1
  rw [List.head?_append_of_ne_nil _ hne] at hhead
  rw [List.getLast?_append_of_ne_nil _ (List.cons_ne_nil _ _),
    List.getLast?_cons_of_ne_nil hne'] at hlast
  rcases h with rfl | rfl | ⟨a, b, hbetween, hhint⟩
  · exact absurd (List.mem_of_head? hhead) hnotBefore
  · exact absurd (List.mem_of_getLast? hlast) hnotAfter
  · obtain ⟨ha, hb⟩ := mem_of_between hnotBefore hnotAfter hbetween
    exact ⟨a, ha, b, hb, hhint⟩

/-- The solved way holds every hub that two neighbours on it hint at. Each hub between its ends is
hinted at by a hub before it and one behind it. -/
theorem solve_follows_hints (net : Network) {exporting importing : String}
    (h : exporting ≠ importing) :
    let way := solve net exporting importing
    (∀ before a b after, way = before ++ a :: b :: after →
      ∀ hub ∈ hints (net.gateway a b) (net.gateway b a), hub ∈ way) ∧
    ∀ before hub after, way = before ++ hub :: after → before ≠ [] → after ≠ [] →
      ∃ a ∈ before, ∃ b ∈ after, hub ∈ hints (net.gateway a b) (net.gateway b a) := by
  intro way
  have hexpand : way = expand net [] exporting [importing] := solve_eq_expand net h
  have hhead := head?_expand net [] exporting [importing]
  have hlast := getLast?_expand net [] exporting [importing]
  have nodup := nodup_expand net [] exporting [importing] (by simpa using h)
  obtain ⟨hanswered, hjustified⟩ := followed_expand net [] exporting [importing]
    (followed_start net.gateway exporting importing)
  rw [← hexpand] at hanswered hjustified hhead hlast nodup
  refine ⟨fun before a b after hsplit hub hhint => ?_, fun before hub after hsplit hne hne' => ?_⟩
  · rw [hsplit] at hanswered
    exact hsplit ▸ (List.isChain_append_cons_cons.1 hanswered).2.1 hhint
  · rw [hsplit] at hhead hlast nodup hjustified
    exact hinted_of_justified nodup hhead hlast hne hne'
      (hjustified hub (List.mem_append_right _ (List.mem_cons_self ..)))

/-- `d` names `e` to `c` alone, so that `e` stands between these two. -/
theorem solve_follows_hints_circular : "a" ≠ "b" ∧
    solve circular.network "a" "b" = ["a", "c"] ++ "e" :: ["d", "b"] ∧
    (∀ hub ∈ hints (circular.gateway "c" "e") (circular.gateway "e" "c"),
      hub ∈ solve circular.network "a" "b") ∧
    ∃ a ∈ ["a", "c"], ∃ b ∈ ["d", "b"],
      "e" ∈ hints (circular.gateway a b) (circular.gateway b a) := by
  have hne : "a" ≠ "b" := by decide
  have hway : solve circular.network "a" "b" = ["a", "c"] ++ "e" :: ["d", "b"] := by
    decide +kernel
  obtain ⟨hanswered, hhinted⟩ := solve_follows_hints circular.network hne
  exact ⟨hne, hway, hanswered ["a"] "c" "e" ["d", "b"] hway,
    hhinted ["a", "c"] "e" ["d", "b"] hway (by decide) (by decide)⟩

end HubFederation.Way
