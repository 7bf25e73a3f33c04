import HubFederation.Gateway

/-!
# Ways between hubs

A way is the list of hubs that a tunnel crosses, from the exporting hub to the
importing one. It starts as these two hubs. Each neighbouring pair is widened by
the way hints of its sides until no pair hints at a hub that is not on the way.

* `Way.expand` walks the pairs from the exporting side; it stops because a hub is
  never entered twice and the hints name finitely many.
* `Way.collapse` erases loops.
-/
namespace HubFederation.Way

/-- The hubs hinted at between an exporting and an importing gateway. A side that
can be dialed tells how it is reached; a side that dials tells how it gets out.
mirrors `way.hints` -/
def hints (exporting importing : Gateway) : List String :=
  if exporting.reachable then exporting.receptionWay.reverse ++ importing.navigationWay
  else if importing.reachable then exporting.navigationWay.reverse ++ importing.receptionWay
  else exporting.navigationWay.reverse ++ importing.navigationWay

/-- The hubs hinted at between two neighbours that are not on the way, each once.
mirrors the names that `way.solve` inserts -/
def fresh (gateway : Gateways) (way : List String) (exporting importing : String) : List String :=
  ((hints (gateway exporting importing) (gateway importing exporting)).filter
    fun name => !way.contains name).eraseDups

theorem hints_subset (net : Network) (a b : String) :
    hints (net.gateway a b) (net.gateway b a) ⊆ net.names := by
  intro name h
  have ha : name ∈ (net.gateway a b).hintNames → _ := fun h => net.hintNames_subset a b h
  have hb : name ∈ (net.gateway b a).hintNames → _ := fun h => net.hintNames_subset b a h
  simp only [Gateway.hintNames, List.mem_append] at ha hb
  unfold hints at h
  split at h
  · simp only [List.mem_append, List.mem_reverse] at h
    exact h.elim (fun h => ha (.inr h)) (fun h => hb (.inl h))
  · split at h
    · simp only [List.mem_append, List.mem_reverse] at h
      exact h.elim (fun h => ha (.inl h)) (fun h => hb (.inr h))
    · simp only [List.mem_append, List.mem_reverse] at h
      exact h.elim (fun h => ha (.inl h)) (fun h => hb (.inl h))

theorem mem_fresh {gateway : Gateways} {way : List String} {a b name : String} :
    name ∈ fresh gateway way a b ↔
      name ∈ hints (gateway a b) (gateway b a) ∧ name ∉ way := by
  simp [fresh, List.mem_eraseDups, List.mem_filter]

/-- The hinted names that are not on the way. -/
def unused (net : Network) (way : List String) : List String :=
  net.names.filter fun name => !way.contains name

theorem unused_congr {net : Network} {way way' : List String} (h : ∀ n, n ∈ way ↔ n ∈ way') :
    unused net way = unused net way' := by
  unfold unused
  congr 1
  funext n
  simp only [List.contains_eq_mem, h n]

theorem nodup_eraseDups : ∀ names : List String, names.eraseDups.Nodup
  | [] => .nil
  | name :: names => by
    rw [List.eraseDups_cons, List.nodup_cons]
    exact ⟨by simp [List.mem_eraseDups], nodup_eraseDups _⟩
termination_by names => names.length
decreasing_by exact Nat.lt_succ_of_le (List.length_filter_le ..)

/-- Hubs that are entered are used up. -/
theorem unused_add_length_le {net : Network} {way way' entered : List String}
    (nodup : entered.Nodup) (hn : entered ⊆ net.names) (hw : ∀ n ∈ entered, n ∉ way)
    (hw' : ∀ n, n ∈ way ∨ n ∈ entered → n ∈ way') :
    (unused net way').length + entered.length ≤ (unused net way).length := by
  have hkept : (unused net way').length ≤ (unused net way).countP fun n => !entered.contains n := by
    unfold unused
    rw [List.countP_filter, ← List.countP_eq_length_filter]
    refine List.countP_mono_left fun n _ h => ?_
    have hnot : n ∉ way' := by simpa using h
    simpa using ⟨fun he => hnot (hw' n (.inr he)), fun he => hnot (hw' n (.inl he))⟩
  have hentered : entered.length ≤ (unused net way).countP fun n => entered.contains n := by
    rw [List.countP_eq_length_filter]
    refine nodup.length_le_of_subset fun n h => List.mem_filter.2 ⟨?_, by simpa using h⟩
    exact List.mem_filter.2 ⟨hn h, by simpa using hw n h⟩
  have hsplit := List.length_eq_countP_add_countP (fun n => entered.contains n)
    (l := unused net way)
  simp only [Bool.not_eq_true, Bool.decide_eq_false] at hsplit
  omega

/-- Widens the pairs from `here` on. `passed` holds the hubs before `here`, the
nearest first; a pair that was split is looked at again from its left half.
mirrors the loop of `way.solve` -/
def expand (net : Network) (passed : List String) (here : String) : List String → List String
  | [] => (here :: passed).reverse
  | next :: rest =>
    let way := passed ++ here :: next :: rest
    match _h : fresh net.gateway way here next with
    | [] => expand net (here :: passed) next rest
    | name :: names => expand net passed here (name :: names ++ next :: rest)
termination_by ahead => 2 * (unused net (passed ++ here :: ahead)).length + ahead.length
decreasing_by
  · have : unused net ((here :: passed) ++ next :: rest) =
        unused net (passed ++ here :: next :: rest) := unused_congr fun n => by
      simp only [List.mem_append, List.mem_cons, List.cons_append]
      constructor <;> rintro (h | h | h) <;> simp_all
    rw [this]
    simp
  · have hm (n : String) (hn : n ∈ name :: names) :
        n ∈ net.names ∧ n ∉ passed ++ here :: next :: rest := by
      rw [← _h, mem_fresh] at hn
      exact ⟨hints_subset net here next hn.1, hn.2⟩
    have hle : (unused net (passed ++ here :: (name :: names ++ next :: rest))).length +
        (name :: names).length ≤ (unused net (passed ++ here :: next :: rest)).length := by
      refine unused_add_length_le ?_ (fun n hn => (hm n hn).1) (fun n hn => (hm n hn).2) ?_
      · rw [← _h]; exact nodup_eraseDups _
      · intro n h
        simp only [List.mem_append, List.mem_cons] at h ⊢
        rcases h with (h | h | h | h) | h <;> simp [h]
    simp only [List.length_cons, List.length_append] at hle ⊢
    omega

/-- Erases loops: where a hub comes again, everything since it came first is dropped.
mirrors `way.collapse` -/
def collapse (way : List String) : List String :=
  way.foldl (fun out hub => out.takeWhile (· ≠ hub) ++ [hub]) []

/-- The way from `exporting` to `importing`. A pair of neighbours may remain of which
neither can dial the other.
mirrors `way.solve` -/
def solve (net : Network) (exporting importing : String) : List String :=
  if exporting = importing then [exporting]
  else collapse (expand net [] exporting [importing])

end HubFederation.Way
