/-!
# Look-ups in lists

What `List.lookup` finds after pairs with one key were taken out, and where a key does not
occur; where the results of `List.mapM` are from; and what a fold leaves where the last word
counts.
-/
namespace HubFederation

/-- What a list was made into was made of its elements. -/
theorem mem_of_mapM {α β : Type} {f : α → Option β} {as : List α} {bs : List β}
    (h : as.mapM f = some bs) {b : β} (hb : b ∈ bs) : ∃ a ∈ as, f a = some b := by
  induction as generalizing bs with
  | nil => cases h; cases hb
  | cons a as ih =>
    rw [List.mapM_cons] at h
    obtain ⟨b', hb', h⟩ := Option.bind_eq_some_iff.1 h
    obtain ⟨bs', hbs', h⟩ := Option.bind_eq_some_iff.1 h
    cases h
    rcases List.mem_cons.1 hb with rfl | hb
    · exact ⟨a, List.mem_cons_self .., hb'⟩
    · obtain ⟨a', ha', hf⟩ := ih hbs' hb
      exact ⟨a', List.mem_cons_of_mem _ ha', hf⟩

section
variable {σ α β : Type} {step : σ → α → σ}

/-- If what is read after each step is the word of its element, where it has one, what is read
after all of them is the last word. -/
theorem read_foldl (read : σ → β) (word : α → Option β) {as : List α}
    (h : ∀ a ∈ as, ∀ s, read (step s a) = (word a).getD (read s)) (s : σ) :
    read (as.foldl step s) = (as.filterMap word).getLast?.getD (read s) := by
  induction as generalizing s with
  | nil => rfl
  | cons a as ih =>
    rw [List.foldl_cons, ih fun b hb => h b (List.mem_cons_of_mem _ hb),
      h a (List.mem_cons_self ..)]
    cases hword : word a with
    | none => rw [List.filterMap_cons_none hword, Option.getD_none]
    | some b =>
      rw [List.filterMap_cons_some hword, List.getLast?_cons]
      rfl

/-- The same where the elements of one kind have a word. -/
theorem read_foldl_filter (read : σ → β) {p : α → Prop} [DecidablePred p] {now : α → β}
    (h : ∀ a s, read (step s a) = if p a then now a else read s) (as : List α) (s : σ) :
    read (as.foldl step s) = ((as.filter p).getLast?.map now).getD (read s) := by
  have hword : ∀ a ∈ as, ∀ s,
      read (step s a) = (if p a then some (now a) else none).getD (read s) := by
    intro a _ s
    rw [h]
    split <;> rfl
  rw [read_foldl read _ hword, ← List.getLast?_map, ← List.filterMap_eq_map,
    List.filterMap_filter]
  simp only [decide_eq_true_eq, Function.comp_apply]

end

variable {κ α : Type} [DecidableEq κ]

theorem lookup_filter_ne (k : κ) (es : List (κ × α)) (k' : κ) :
    (es.filter fun e => e.1 ≠ k).lookup k' = if k' = k then none else es.lookup k' := by
  induction es with
  | nil => simp
  | cons e es ih =>
    rw [List.filter_cons]
    by_cases he : e.1 = k
    · simp only [he, ne_eq, not_true_eq_false, decide_false, Bool.false_eq_true, if_false, ih]
      split
      · rfl
      next h => rw [List.lookup_cons, he, beq_eq_false_iff_ne.2 h]
    · simp only [he, ne_eq, not_false_eq_true, decide_true, if_true]
      rw [List.lookup_cons, List.lookup_cons, ih]
      split
      next h => rw [beq_iff_eq.1 h, if_neg he]
      · rfl

theorem lookup_eq_none {k : κ} {es : List (κ × α)} (h : k ∉ es.map (·.1)) : es.lookup k = none := by
  refine List.lookup_eq_none_iff.2 fun e he => bne_iff_ne.2 fun hk => h ?_
  rw [show k = e.1 from hk]
  exact List.mem_map_of_mem he

end HubFederation
