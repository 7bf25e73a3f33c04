import HubFederation.AllowList
import Mathlib.Order.Compare

/-!
# Merging is a set operation

Allow lists come together in whatever order chains are walked, and some of them twice. What
they say together depends on none of that: the targets are those of all lists, ascending, and
a default is left if every list has it.

* `Permission.Merged`: what permissions say together. It determines a permission, whatever
  their order and however often each occurs.
* `foldl_merge_of_same_members`: lists with the same members are merged to the same.
-/
namespace HubFederation

namespace Permission

theorem sorted_union (a b : List String) : (union a b).Pairwise (· < ·) := by
  unfold union SortedMap.keys
  exact List.pairwise_map.2 ((SortedMap.ofList _).sorted.imp fun h => compareOfLessAndEq_eq_lt.1 h)

/-- Ascending lists with the same targets are equal. -/
theorem eq_of_sorted {a b : List String} (ha : a.Pairwise (· < ·)) (hb : b.Pairwise (· < ·))
    (h : ∀ t, t ∈ a ↔ t ∈ b) : a = b :=
  SortedMap.eq_of_mem_iff id (ha.imp compareOfLessAndEq_eq_lt.2)
    (hb.imp compareOfLessAndEq_eq_lt.2) h

/-- `p` is what the permissions `qs` say together. -/
structure Merged (qs : List Permission) (p : Permission) : Prop where
  mem_allows : ∀ t, t ∈ p.allows ↔ ∃ q ∈ qs, t ∈ q.allows
  sorted_allows : p.allows.Pairwise (· < ·)
  mem_blocks : ∀ t, t ∈ p.blocks ↔ ∃ q ∈ qs, t ∈ q.blocks
  sorted_blocks : p.blocks.Pairwise (· < ·)
  default_iff : ∀ d, p.default = some d ↔ ∀ q ∈ qs, q.default = some d

variable {p p' : Permission} {qs qs' : List Permission}

theorem merged_merge (p q : Permission) : (p.merge q).Merged [p, q] := by
  refine ⟨fun t => ?_, sorted_union _ _, fun t => ?_, sorted_union _ _, fun d => ?_⟩
  · exact mem_union.trans (by simp)
  · exact mem_union.trans (by simp)
  · exact agree_eq_some.trans (by simp)

theorem Merged.merge (h : p.Merged qs) (q : Permission) : (p.merge q).Merged (qs ++ [q]) := by
  refine ⟨fun t => ?_, sorted_union _ _, fun t => ?_, sorted_union _ _, fun d => ?_⟩
  · refine mem_union.trans ?_
    rw [h.mem_allows]
    simp only [List.mem_append, List.mem_singleton, or_and_right, exists_or, exists_eq_left]
  · refine mem_union.trans ?_
    rw [h.mem_blocks]
    simp only [List.mem_append, List.mem_singleton, or_and_right, exists_or, exists_eq_left]
  · refine agree_eq_some.trans ?_
    rw [h.default_iff]
    simp only [List.forall_mem_append, List.forall_mem_singleton]

theorem Merged.foldl (h : p.Merged qs) (rs : List Permission) :
    (rs.foldl Permission.merge p).Merged (qs ++ rs) := by
  induction rs generalizing p qs with
  | nil => rwa [List.append_nil]
  | cons r rs ih =>
    rw [List.foldl_cons, List.append_cons]
    exact ih (h.merge r)

/-- The first merge already brings the targets of `p` into order. -/
theorem merged_foldl (p : Permission) (hne : qs ≠ []) :
    (qs.foldl Permission.merge p).Merged (p :: qs) := by
  cases qs with
  | nil => exact absurd rfl hne
  | cons q qs => exact (merged_merge p q).foldl qs

/-- What permissions say together depends on nothing but which they are. -/
theorem Merged.unique (h : p.Merged qs) (h' : p'.Merged qs') (hmem : ∀ q, q ∈ qs ↔ q ∈ qs') :
    p = p' := by
  have hallows : p.allows = p'.allows := eq_of_sorted h.sorted_allows h'.sorted_allows fun t => by
    rw [h.mem_allows, h'.mem_allows]
    simp only [hmem]
  have hblocks : p.blocks = p'.blocks := eq_of_sorted h.sorted_blocks h'.sorted_blocks fun t => by
    rw [h.mem_blocks, h'.mem_blocks]
    simp only [hmem]
  have hdefault : p.default = p'.default := Option.ext fun d => by
    rw [h.default_iff, h'.default_iff]
    simp only [hmem]
  cases p
  cases p'
  simp only at hallows hblocks hdefault
  rw [hallows, hblocks, hdefault]

end Permission

namespace AllowList

theorem ext_permission {l m : AllowList} (h : ∀ kind, l.permission kind = m.permission kind) :
    l = m := by
  cases l
  cases m
  have hstream := h .directStreamlocal
  have htcp := h .directTcpip
  have hforward := h .streamlocalForward
  have hbind := h .tcpipForward
  simp only [permission] at hstream htcp hforward hbind
  rw [hstream, htcp, hforward, hbind]

/-- Each kind is merged by itself. -/
theorem permission_foldl_merge (l : AllowList) (ms : List AllowList) (kind : RequestKind) :
    (ms.foldl merge l).permission kind =
      (ms.map (·.permission kind)).foldl Permission.merge (l.permission kind) := by
  induction ms generalizing l with
  | nil => rfl
  | cons m ms ih => rw [List.foldl_cons, ih, permission_merge, List.map_cons, List.foldl_cons]

theorem merged_permission (l : AllowList) {ms : List AllowList} (hne : ms ≠ [])
    (kind : RequestKind) :
    ((ms.foldl merge l).permission kind).Merged ((l :: ms).map (·.permission kind)) := by
  rw [permission_foldl_merge, List.map_cons]
  exact Permission.merged_foldl _ fun h => hne (List.map_eq_nil_iff.1 h)

/-- Merging allow lists with the same members gives the same list, in whatever order they come
and however often each of them does. For every kind it has the targets of all of them, the
first one included, ascending and each once, and the default that all of them have. -/
theorem foldl_merge_of_same_members (l : AllowList) {ms ms' : List AllowList} (hne : ms ≠ [])
    (hne' : ms' ≠ []) (hmem : ∀ m, m ∈ ms ↔ m ∈ ms') :
    ms.foldl merge l = ms'.foldl merge l ∧
      ∀ kind, ((ms.foldl merge l).permission kind).Merged ((l :: ms).map (·.permission kind)) := by
  refine ⟨ext_permission fun kind => ?_, merged_permission l hne⟩
  refine (merged_permission l hne kind).unique (merged_permission l hne' kind) fun q => ?_
  simp only [List.mem_map, List.mem_cons, hmem]

/-- One of two lists occurs twice, and the lists disagree about a default. -/
theorem foldl_merge_of_same_members_twice :
    let l : AllowList := ⟨∅, ⟨some true, ["b:80"], []⟩, ∅, ⟨some true, [], []⟩⟩
    let m : AllowList := ⟨∅, ⟨some true, ["b:80", "a:80"], []⟩, ∅, ⟨some false, [], ["x:1"]⟩⟩
    let n : AllowList := allow .tcpipForward ":10001"
    (∀ k, k ∈ [m, n, m] ↔ k ∈ [n, m]) ∧ [m, n, m].foldl merge l = [n, m].foldl merge l ∧
      ([m, n, m].foldl merge l).tcpipForward = ⟨none, [":10001"], ["x:1"]⟩ := by
  intro l m n
  have hmem : ∀ k, k ∈ [m, n, m] ↔ k ∈ [n, m] := fun k => by
    simp only [List.mem_cons, List.not_mem_nil, or_false]
    constructor
    · rintro (h | h)
      · exact .inr h
      · exact h
    · rintro (h | h)
      · exact .inr (.inl h)
      · exact .inl h
  exact ⟨hmem, (foldl_merge_of_same_members l (by simp) (by simp) hmem).1, by decide⟩

end AllowList

end HubFederation
