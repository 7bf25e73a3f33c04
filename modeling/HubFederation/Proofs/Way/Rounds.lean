import HubFederation.Way
import Mathlib.Data.List.Induction
import Mathlib.Data.List.TakeWhile

/-!
# Ways are well-formed

The loop that widens a way holds the way and the place of the pair it looks at. A round
either passes on to the next pair, or enters the hubs hinted at between the two and looks
at the left half again. Hubs are never entered twice, so with finitely many names to hint
at there are finitely many rounds, however the hints run in circles.

* `exists_rounds_expand`: the rounds from any place on, and how many there are at most.
* `solve_well_formed`: the loop comes to an end; the way that it leaves starts and ends as it
  shall, has no hub twice, and loses nothing when loops are erased.
-/
namespace HubFederation.Way

/-! ## The loop -/

/-- A way, and the place of the pair that is looked at. -/
structure Scan where
  way : List String
  place : Nat
  deriving DecidableEq, Repr

namespace Scan

/-- The way is nothing but its two ends. -/
def start (exporting importing : String) : Scan := ⟨[exporting, importing], 0⟩

/-- One round; there is none when no pair is left. -/
def round? (gateway : Gateways) (s : Scan) : Option Scan :=
  match s.way.drop s.place with
  | here :: next :: _ =>
    match fresh gateway s.way here next with
    | [] => some { s with place := s.place + 1 }
    | entered =>
      some { s with way := s.way.take (s.place + 1) ++ entered ++ s.way.drop (s.place + 1) }
  | _ => none

/-- `n` rounds lead from one place to another. -/
inductive Rounds (gateway : Gateways) : Nat → Scan → Scan → Prop
  | none (s : Scan) : Rounds gateway 0 s s
  | next {n : Nat} {s t u : Scan} : s.round? gateway = some t → Rounds gateway n t u →
      Rounds gateway (n + 1) s u

end Scan

theorem fresh_congr {gateway : Gateways} {way way' : List String} (a b : String)
    (h : ∀ n, n ∈ way ↔ n ∈ way') : fresh gateway way a b = fresh gateway way' a b := by
  unfold fresh
  congr 2
  funext n
  simp only [List.contains_eq_mem, h n]

section
variable (net : Network)

/-- Where the walk along a way stands, as a place on it. -/
def scanAt (passed : List String) (here : String) (ahead : List String) : Scan :=
  ⟨passed.reverse ++ here :: ahead, passed.length⟩

theorem round?_end (passed : List String) (here : String) :
    (scanAt passed here []).round? net.gateway = none := by
  simp [Scan.round?, scanAt]

/-- What a round finds between two neighbours. -/
theorem round?_scanAt (passed : List String) (here next : String) (rest : List String) :
    (scanAt passed here (next :: rest)).round? net.gateway =
      match fresh net.gateway (passed ++ here :: next :: rest) here next with
      | [] => some (scanAt (here :: passed) next rest)
      | name :: names => some (scanAt passed here (name :: names ++ next :: rest)) := by
  have hfresh : fresh net.gateway (passed.reverse ++ here :: next :: rest) here next =
      fresh net.gateway (passed ++ here :: next :: rest) here next := by
    refine fresh_congr here next fun n => ?_
    simp only [List.mem_append, List.mem_reverse]
  have hlength : (passed.reverse ++ [here]).length = passed.length + 1 := by simp
  have hsplit : passed.reverse ++ here :: next :: rest =
      (passed.reverse ++ [here]) ++ next :: rest := by simp
  have htake : (passed.reverse ++ here :: next :: rest).take (passed.length + 1) =
      passed.reverse ++ [here] := by
    rw [hsplit, ← hlength, List.take_left]
  have hdrop : (passed.reverse ++ here :: next :: rest).drop (passed.length + 1) =
      next :: rest := by
    rw [hsplit, ← hlength, List.drop_left]
  have hpair : (passed.reverse ++ here :: next :: rest).drop passed.length =
      here :: next :: rest := by
    rw [← List.length_reverse, List.drop_left]
  unfold Scan.round? scanAt
  simp only [hpair, hfresh, htake, hdrop]
  cases fresh net.gateway (passed ++ here :: next :: rest) here next with
  | nil => simp
  | cons name names => simp

/-- From any place on the loop comes to an end, with the way that is widened from there on.
Each round leaves a pair behind, or uses names up that were not on the way before. -/
theorem exists_rounds_expand (passed : List String) (here : String) (ahead : List String) :
    ∃ n last, n ≤ 2 * (unused net (passed ++ here :: ahead)).length + ahead.length ∧
      Scan.Rounds net.gateway n (scanAt passed here ahead) last ∧
      last.round? net.gateway = none ∧ last.way = expand net passed here ahead := by
  fun_induction expand net passed here ahead with
  | case1 passed here =>
    exact ⟨0, scanAt passed here [], Nat.zero_le _, .none _, round?_end net passed here,
      by simp [scanAt]⟩
  | case2 passed here next rest way hfresh ih =>
    obtain ⟨n, last, hn, hrounds, hend, hway⟩ := ih
    have hround := round?_scanAt net passed here next rest
    rw [hfresh] at hround
    have hunused : unused net ((here :: passed) ++ next :: rest) = unused net way :=
      unused_congr fun name => by
        simp only [way, List.mem_append, List.mem_cons, List.cons_append]
        constructor <;> rintro (h | h | h) <;> simp_all
    rw [hunused] at hn
    refine ⟨n + 1, last, ?_, .next hround hrounds, hend, hway⟩
    simp only [way, List.length_cons] at hn ⊢
    omega
  | case3 passed here next rest way name names hfresh ih =>
    obtain ⟨n, last, hn, hrounds, hend, hway⟩ := ih
    have hround := round?_scanAt net passed here next rest
    rw [hfresh] at hround
    have hm : ∀ hub ∈ name :: names, hub ∈ net.names ∧ hub ∉ way := fun hub h => by
      rw [← hfresh, mem_fresh] at h
      exact ⟨hints_subset net here next h.1, h.2⟩
    have hused : (unused net (passed ++ here :: (name :: names ++ next :: rest))).length
        + (name :: names).length ≤ (unused net way).length := unused_add_length_le
      (hfresh ▸ nodup_eraseDups _) (fun hub h => (hm hub h).1) (fun hub h => (hm hub h).2)
      fun hub h => by
        simp only [way, List.mem_append, List.mem_cons] at h ⊢
        rcases h with (h | h | h | h) | h <;> simp [h]
    refine ⟨n + 1, last, ?_, .next hround hrounds, hend, hway⟩
    simp only [way, List.length_cons, List.length_append] at hn hused ⊢
    omega

/-! ## What the loop keeps -/

/-- Widening keeps the hubs of a way distinct. -/
theorem nodup_expand (passed : List String) (here : String) (ahead : List String)
    (h : (passed.reverse ++ here :: ahead).Nodup) : (expand net passed here ahead).Nodup := by
  fun_induction expand net passed here ahead with
  | case1 passed here => simpa using h
  | case2 passed here next rest way hfresh ih => exact ih (by simpa using h)
  | case3 passed here next rest way name names hfresh ih =>
    have hentered : (name :: names).Nodup := hfresh ▸ nodup_eraseDups _
    have hnew : ∀ hub ∈ name :: names, ∀ old ∈ passed.reverse ++ [here] ++ next :: rest,
        hub ≠ old := by
      intro hub hhub old hold he
      have hout := (mem_fresh.1 (hfresh ▸ hhub)).2
      exact hout (by simpa [way, he] using hold)
    have hperm : (passed.reverse ++ here :: (name :: names ++ next :: rest)).Perm
        ((name :: names) ++ (passed.reverse ++ [here] ++ next :: rest)) := by
      have := List.perm_append_comm_assoc (passed.reverse ++ [here]) (name :: names) (next :: rest)
      simpa using this
    refine ih (hperm.nodup_iff.2 (List.nodup_append.2 ⟨hentered, ?_, hnew⟩))
    simpa using h

theorem head?_expand (passed : List String) (here : String) (ahead : List String) :
    (expand net passed here ahead).head? = (passed.reverse ++ [here]).head? := by
  fun_induction expand net passed here ahead with
  | case1 passed here => simp
  | case2 passed here next rest way hfresh ih => rw [ih]; simp
  | case3 passed here next rest way name names hfresh ih => exact ih

theorem getLast?_expand (passed : List String) (here : String) (ahead : List String) :
    (expand net passed here ahead).getLast? = (here :: ahead).getLast? := by
  fun_induction expand net passed here ahead with
  | case1 passed here => simp
  | case2 passed here next rest way hfresh ih => rw [ih]; simp
  | case3 passed here next rest way name names hfresh ih =>
    rw [ih]
    simp [List.getLast?_append, List.getLast?_cons]

end

/-! ## What erasing loops keeps -/

theorem takeWhile_ne_eq_self {hub : String} {hubs : List String} (h : hub ∉ hubs) :
    hubs.takeWhile (· ≠ hub) = hubs :=
  List.takeWhile_eq_self_iff.2 fun _ hmem => decide_eq_true fun he => h (he ▸ hmem)

/-- One more hub at the end of a way erases what was left behind it. -/
theorem collapse_concat (way : List String) (hub : String) :
    collapse (way ++ [hub]) = (collapse way).takeWhile (· ≠ hub) ++ [hub] := by
  unfold collapse
  rw [List.foldl_append, List.foldl_cons, List.foldl_nil]

/-- Where no hub comes again, there is no loop to erase. -/
theorem collapse_of_nodup {way : List String} (h : way.Nodup) : collapse way = way := by
  induction way using List.reverseRecOn with
  | nil => rfl
  | append_singleton way hub ih =>
    obtain ⟨hway, -, hdisjoint⟩ := List.nodup_append.1 h
    have hnew : hub ∉ way := fun hmem => hdisjoint hub hmem hub (List.mem_singleton_self hub) rfl
    rw [collapse_concat, ih hway, takeWhile_ne_eq_self hnew]

/-! ## The solved way -/

/-- Between different hubs, the solved way is what the loop leaves. -/
theorem solve_eq_expand (net : Network) {exporting importing : String}
    (h : exporting ≠ importing) :
    solve net exporting importing = expand net [] exporting [importing] := by
  unfold solve
  rw [if_neg h]
  exact collapse_of_nodup (nodup_expand net [] exporting [importing] (by simpa using h))

/-- No hub is on a way twice. -/
theorem nodup_solve (net : Network) (exporting importing : String) :
    (solve net exporting importing).Nodup := by
  by_cases h : exporting = importing
  · simp [solve, h]
  · rw [solve_eq_expand net h]
    exact nodup_expand net [] exporting [importing] (by simpa using h)

/-- A way leads to the importing hub. -/
theorem importing_mem_solve (net : Network) (exporting importing : String) :
    importing ∈ solve net exporting importing := by
  by_cases h : exporting = importing
  · simp [solve, h]
  · have hlast := getLast?_expand net [] exporting [importing]
    rw [solve_eq_expand net h]
    exact List.mem_of_getLast? hlast

/-- The loop comes to an end within a bound on the number of rounds, whatever the finitely
many hubs are that the hints name. The way it leaves is the solved one: it starts with the
exporting hub, ends with the importing one, and has no hub twice, so that erasing loops
drops nothing. -/
theorem solve_well_formed (net : Network) {exporting importing : String}
    (h : exporting ≠ importing) :
    (∃ n last, n ≤ 2 * net.names.length + 1 ∧
      Scan.Rounds net.gateway n (.start exporting importing) last ∧
      last.round? net.gateway = none ∧
      solve net exporting importing = collapse last.way ∧ collapse last.way = last.way) ∧
    (solve net exporting importing).head? = some exporting ∧
    (solve net exporting importing).getLast? = some importing ∧
    (solve net exporting importing).Nodup := by
  obtain ⟨n, last, hn, hrounds, hend, hway⟩ := exists_rounds_expand net [] exporting [importing]
  have hnodup : last.way.Nodup := by
    rw [hway]
    exact nodup_expand net [] exporting [importing] (by simpa using h)
  have hcollapse := collapse_of_nodup hnodup
  have hsolve : solve net exporting importing = last.way := by
    unfold solve
    rw [if_neg h, ← hway, hcollapse]
  have hnames : (unused net ([] ++ exporting :: [importing])).length ≤ net.names.length :=
    List.length_filter_le ..
  refine ⟨⟨n, last, ?_, hrounds, hend, by rw [hsolve, hcollapse], hcollapse⟩, ?_, ?_, ?_⟩
  · simp only [List.length_cons, List.length_nil] at hn
    omega
  · rw [hsolve, hway, head?_expand]; simp
  · rw [hsolve, hway, getLast?_expand]; simp
  · rw [hsolve]; exact hnodup

/-- Hubs whose hints name each other, the ends of the way and themselves. One of them shows a
peer something else. -/
def circular : Graph where
  gateways := (((∅ : SortedMap String Gateway).insert "a" ⟨true, "a:22", ["b"], ["d", "c"], [], []⟩).insert
    "b" ⟨false, "", ["c", "a", "c"], [], [], []⟩).insert "c" ⟨false, "", ["d", "c"], ["a"], [], []⟩
  overrides := (∅ : SortedMap String (SortedMap String Gateway)).insert "d"
    ((∅ : SortedMap String Gateway).insert "c" ⟨true, "d:22", ["c"], ["e", "b"], [], []⟩)

/-- The hints that go round in circles are followed once. -/
theorem solve_circular : "a" ≠ "b" ∧
    solve circular.network "a" "b" = ["a", "c", "e", "d", "b"] ∧
    (∃ n last, n ≤ 2 * circular.network.names.length + 1 ∧
      Scan.Rounds circular.network.gateway n (.start "a" "b") last ∧
      last.round? circular.network.gateway = none ∧
      solve circular.network "a" "b" = collapse last.way ∧ collapse last.way = last.way) := by
  have hne : "a" ≠ "b" := by decide
  exact ⟨hne, by decide +kernel, (solve_well_formed circular.network hne).1⟩

end HubFederation.Way
