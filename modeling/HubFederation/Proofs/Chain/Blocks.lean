import Mathlib.Data.List.SplitBy
import HubFederation.Proofs.Chain.Runs

/-!
# Merged chains carry blocks

The joints of a way fall into blocks: first joints that are pulled, then joints that are
not. A block ends where a joint that is pulled follows one that is not. After merging,
one hub runs one chain for each block and there are no other chains: the hub where the
joints of the block turn from pulled to pushed.

* `busy_settled`: the chains that the merge passes leave are those of the blocks.
-/
namespace HubFederation

/-- The joints of a way, cut wherever one that is pulled follows one that is not. -/
def blocks (js : List Joint) : List (List Joint) :=
  js.splitBy fun j next => j.pulled || !next.pulled

/-- The hubs of a block: where it starts, and where each of its joints leads. -/
def blockHubs : List Joint → List String
  | [] => []
  | j :: js => j.exporting :: (j :: js).map (·.importing)

/-- The hub that lies as many joints behind the start of a block as the block has joints
that are pulled. -/
def turn (b : List Joint) : String := (blockHubs b).getD (b.countP (·.pulled)) ""

/-- The endpoints of the joints that are pulled, from the exporting side on. -/
def pulledHops (b : List Joint) : List Endpoint := (b.filter (·.pulled)).flatMap (·.hops)

/-- The endpoints of the joints that are not pulled, joint by joint from the importing side. -/
def pushedHops (b : List Joint) : List Endpoint := (b.filter (!·.pulled)).reverse.flatMap (·.hops)

namespace Tunnel

/-- The chain of each block and the hub that runs it; `near` is the local end that the
first of them dials. A block hands on to the next one over the socket. -/
def carriers (t : Tunnel) (near : List Endpoint) : List (List Joint) → List (String × Chain)
  | [] => []
  | b :: bs =>
    (turn b, ⟨[if bs.isEmpty then .listen t.bindPort else t.socket] ++ pushedHops b,
      near ++ pulledHops b⟩) :: carriers t [t.socket] bs

end Tunnel

/-! ## Blocks, joint by joint -/

@[simp] theorem blocks_nil : blocks [] = [] := rfl

@[simp] theorem blocks_singleton (j : Joint) : blocks [j] = [[j]] := rfl

theorem blocks_ne_nil (j : Joint) (js : List Joint) : blocks (j :: js) ≠ [] := by
  simp [blocks]

/-- A joint belongs to the block of the next one unless that is pulled and it is not. -/
theorem blocks_cons_join {j j' : Joint} {js b : List Joint} {bs : List (List Joint)}
    (hr : (j.pulled || !j'.pulled) = true) (h : blocks (j' :: js) = b :: bs) :
    blocks (j :: j' :: js) = (j :: b) :: bs := by
  unfold blocks at h ⊢
  rw [List.splitBy_eq_iff] at h ⊢
  obtain ⟨hf, hn, hc, hb⟩ := h
  rw [List.mem_cons, not_or] at hn
  obtain ⟨x, b, rfl⟩ := List.exists_cons_of_ne_nil (Ne.symm hn.1)
  rw [List.flatten_cons, List.cons_append, List.cons.injEq] at hf
  obtain ⟨rfl, rfl⟩ := hf
  refine ⟨rfl, by simp [hn.2], ?_, ?_⟩
  · intro m hm
    rcases List.mem_cons.1 hm with rfl | hm
    · exact List.IsChain.cons_cons hr (hc _ (List.mem_cons_self ..))
    · exact hc m (List.mem_cons_of_mem _ hm)
  · cases bs with
    | nil => exact .singleton _
    | cons b' bs =>
      rw [List.isChain_cons_cons] at hb ⊢
      obtain ⟨⟨ha, hb', hr'⟩, hrest⟩ := hb
      exact ⟨⟨List.cons_ne_nil _ _, hb', by rw [List.getLast_cons ha]; exact hr'⟩, hrest⟩

/-- A joint that is not pulled ends its block before one that is. -/
theorem blocks_cons_cut {j j' : Joint} {js : List Joint} (hj : ¬ j.pulled) (hj' : j'.pulled) :
    blocks (j :: j' :: js) = [j] :: blocks (j' :: js) :=
  List.splitBy_append_cons (l := [j]) js (by simp [hj, hj'])

/-- The first block starts with the first joint. -/
theorem blocks_eq_cons (j : Joint) (js : List Joint) : ∃ b bs, blocks (j :: js) = (j :: b) :: bs := by
  cases js with
  | nil => exact ⟨[], [], rfl⟩
  | cons j' js =>
    by_cases hr : (j.pulled || !j'.pulled) = true
    · obtain ⟨b, bs, h⟩ := List.exists_cons_of_ne_nil (blocks_ne_nil j' js)
      exact ⟨b, bs, blocks_cons_join hr h⟩
    · rw [Bool.or_eq_true, not_or, Bool.not_eq_true', Bool.not_eq_false] at hr
      exact ⟨[], blocks (j' :: js), blocks_cons_cut hr.1 hr.2⟩

/-- The blocks before which a joint that is not pulled is put: it joins the first one or
becomes a block of its own. -/
theorem blocks_cons_pushed {j : Joint} (hj : ¬ j.pulled) (js : List Joint) :
    ∃ b bs, blocks (j :: js) = (j :: b) :: bs ∧ (∀ x ∈ b, ¬ x.pulled) ∧
      (blocks js = bs ∧ b = [] ∧ (∀ j' ∈ js.head?, j'.pulled) ∨
        blocks js = b :: bs ∧ ∀ j' ∈ js.head?, ¬ j'.pulled) := by
  induction js generalizing j with
  | nil => exact ⟨[], [], rfl, by simp, .inl ⟨rfl, rfl, by simp⟩⟩
  | cons j' js ih =>
    by_cases hj' : j'.pulled
    · exact ⟨[], blocks (j' :: js), blocks_cons_cut hj hj', by simp,
        .inl ⟨rfl, rfl, by simpa using hj'⟩⟩
    · obtain ⟨b, bs, hb, hall, -⟩ := ih hj'
      exact ⟨j' :: b, bs, blocks_cons_join (by simp [hj']) hb, List.forall_mem_cons.2 ⟨hj', hall⟩,
        .inr ⟨hb, by simpa using hj'⟩⟩

/-! ## The hub and the hops of a block -/

theorem countP_pushed {b : List Joint} (h : ∀ x ∈ b, ¬ x.pulled) : b.countP (·.pulled) = 0 := by
  rw [List.countP_eq_zero]; exact h

theorem turn_of_pushed {j : Joint} {b : List Joint} (h : ∀ x ∈ j :: b, ¬ x.pulled) :
    turn (j :: b) = j.exporting := by
  rw [turn, countP_pushed h]; rfl

/-- A joint that is pulled moves the turn of its block one hub on. -/
theorem turn_cons_pulled {j j' : Joint} {b : List Joint} (hj : j.pulled)
    (he : j'.exporting = j.importing) : turn (j :: j' :: b) = turn (j' :: b) := by
  simp [turn, blockHubs, hj, he]

theorem pulledHops_cons (j : Joint) (b : List Joint) :
    pulledHops (j :: b) = (if j.pulled then j.hops else []) ++ pulledHops b := by
  by_cases h : j.pulled <;> simp [pulledHops, h]

theorem pushedHops_cons (j : Joint) (b : List Joint) :
    pushedHops (j :: b) = pushedHops b ++ if j.pulled then [] else j.hops := by
  by_cases h : j.pulled <;> simp [pushedHops, h]

theorem pulledHops_of_pushed {b : List Joint} (h : ∀ x ∈ b, ¬ x.pulled) : pulledHops b = [] := by
  rw [pulledHops, List.filter_eq_nil_iff.2 h]; rfl

namespace Tunnel

/-- The stack that is bound for a block which starts with a joint that is not pulled. -/
theorem bind_of_pushed (t : Tunnel) {j : Joint} {js b : List Joint} {bs : List (List Joint)}
    (hj : ¬ j.pulled) (h : blocks (j :: js) = (j :: b) :: bs) :
    [if bs.isEmpty then .listen t.bindPort else t.socket] ++ pushedHops (j :: b) =
      t.pushed js ++ j.hops := by
  rw [pushedHops_cons, if_neg hj, ← List.append_assoc]
  congr 1
  induction js generalizing j b with
  | nil => cases h; rfl
  | cons j' js ih =>
    obtain ⟨b', bs', hb, -, hcase⟩ := blocks_cons_pushed hj (j' :: js)
    rw [hb, List.cons.injEq, List.cons.injEq] at h
    obtain ⟨⟨-, rfl⟩, rfl⟩ := h
    rw [pushed]
    rcases hcase with ⟨rfl, rfl, hp⟩ | ⟨hjs, hp⟩
    · rw [if_pos (hp j' rfl), if_neg (by simp [blocks_ne_nil])]; rfl
    · have hj' := hp j' rfl
      obtain ⟨b', bs', hb', -⟩ := blocks_cons_pushed hj' js
      rw [hb', List.cons.injEq] at hjs
      obtain ⟨rfl, rfl⟩ := hjs
      rw [if_neg hj', pushedHops_cons, if_neg hj', ← List.append_assoc, ih hj' hb']

/-- A hub with the one chain that it runs. -/
def sole (e : String × Chain) : String × List Chain := (e.1, [e.2])

/-- The hubs of a way that run something. -/
def busy (runs : List (String × List Chain)) : List (String × List Chain) :=
  runs.filter fun x => !x.2.isEmpty

@[simp] theorem busy_cons_nil (hub : String) (rest : List (String × List Chain)) :
    busy ((hub, []) :: rest) = busy rest := rfl

@[simp] theorem busy_cons_cons (hub : String) (c : Chain) (cs : List Chain)
    (rest : List (String × List Chain)) :
    busy ((hub, c :: cs) :: rest) = (hub, c :: cs) :: busy rest := rfl

/-- The chains that the merge passes leave on the hubs of a way are those of its blocks. -/
theorem busy_settled (t : Tunnel) {js : List Joint} {j : Joint} {hub : String}
    (near : Endpoint) (opened : Option (List Endpoint)) (hj : Joined hub (j :: js)) :
    busy (t.settled near opened hub (j :: js)) =
      (t.carriers (opened.getD [near]) (blocks (j :: js))).map sole := by
  induction js generalizing j hub near opened with
  | nil =>
    obtain ⟨rfl, -⟩ := hj
    by_cases hp : j.pulled
    · simp [settled, hp, carry, carriers, sole, turn, blockHubs, pulledHops, pushedHops, busy]
    · simp [settled, hp, carry, carriers, sole, turn, blockHubs, pulledHops, pushedHops, busy,
        silence, pushed]
  | cons j' js ih =>
    obtain ⟨rfl, hj⟩ := hj
    rw [settled]
    by_cases hp : j.pulled
    · obtain ⟨b, bs, hb⟩ := blocks_eq_cons j' js
      rw [if_pos hp, busy_cons_nil, ih _ _ hj, hb,
        blocks_cons_join (by simp [hp]) hb, carriers, carriers,
        turn_cons_pulled hp hj.1, pulledHops_cons j, pushedHops_cons j, if_pos hp, if_pos hp]
      simp
    · obtain ⟨b, bs, hb, hall, hcase⟩ := blocks_cons_pushed hp (j' :: js)
      have hpushed : ∀ x ∈ j :: b, ¬ x.pulled := List.forall_mem_cons.2 ⟨hp, hall⟩
      have hrest : busy (silence (t.settled t.socket none j.importing (j' :: js))) =
          (t.carriers [t.socket] bs).map sole := by
        have ih' := ih t.socket none hj
        rcases hcase with ⟨rfl, rfl, hp'⟩ | ⟨hjs, hp'⟩
        · rw [settled, if_pos (hp' j' rfl)] at ih' ⊢
          exact ih'
        · obtain ⟨b', bs', hb', -⟩ := blocks_cons_pushed (hp' j' rfl) js
          rw [hb', List.cons.injEq] at hjs
          obtain ⟨-, rfl⟩ := hjs
          rw [settled, if_neg (hp' j' rfl), hb', carriers, List.map_cons, busy_cons_cons,
            List.cons.injEq] at ih'
          rw [settled, if_neg (hp' j' rfl)]
          exact ih'.2
      rw [if_neg hp, busy_cons_cons, hb, carriers, turn_of_pushed hpushed,
        pulledHops_of_pushed hpushed, bind_of_pushed t hp hb, hrest]
      simp [sole]

end Tunnel

end HubFederation
