import Mathlib.Data.List.Chain
import HubFederation.Proofs.Chain.Passes

/-!
# Merging comes to rest

Merged chains leave no pass anything to do, whatever they were before. A pass along the way may
well change what an earlier one has looked at: it empties hubs, and it makes others bind what their
neighbour bound. But a hub without chains is never merged with, a pass that hands chains on leaves
its own pairs behind for good, and a chain that is taken back dials what it dialed before.

* `fused_foldExports`, `fused_foldImports`: the passes along the way open no chance to fuse.
* `isChain_handOver`, `isChain_gather`: neither leaves a pair that it could merge.
* `isChain_gather_of_takeOver`: the second one opens no pair for the first.
* `merge_idempotent`: what merging leaves, and when it leaves everything as it is.
-/
namespace HubFederation.Chains

/-- A chain binds the socket that another one dials. -/
def Meet (c d : Chain) : Prop :=
  ∃ path, c.bind.head? = some (.unix path) ∧ d.proxy.head? = some (.unix path)

/-- No hub runs two chains that meet. -/
def Fused (cs : Chains) : Prop := ∀ hub c d, cs.own hub = [c, d] → ¬ Meet c d

/-- Chains that cannot be merged along a way. -/
structure Irreducible (way : List String) (cs : Chains) : Prop where
  busy : ∀ hub, cs.get? hub ≠ some []
  fused : cs.Fused
  /-- Where the chains of two neighbours meet, there are hops behind the socket on both sides. -/
  apart : ∀ pair ∈ neighbours way, ∀ c d, cs.own pair.1 = [c] → cs.own pair.2 = [d] →
    Meet c d → c.bind.length ≠ 1 ∧ d.proxy.length ≠ 1

/-! ## What a pass looks for -/

theorem fuse_of_not_meet {own : List Chain} (h : ∀ c d, own = [c, d] → ¬ Meet c d) :
    fuse own = own := by
  unfold fuse
  split
  next path hops proxy bind path' hops' =>
    split
    next he => exact absurd ⟨path, rfl, by rw [he]; rfl⟩ (h _ _ rfl)
    · rfl
  · rfl

/-- Two chains that are left after fusing were there before, and do not meet. -/
theorem not_meet_of_fuse {own : List Chain} {c d : Chain} (h : fuse own = [c, d]) :
    ¬ Meet c d := by
  unfold fuse at h
  split at h
  next path hops proxy bind path' hops' =>
    split at h
    · cases h
    next hne =>
      cases h
      rintro ⟨_, hc, hd⟩
      cases hc
      cases hd
      exact hne rfl
  next hno =>
    subst h
    rintro ⟨path, hc, hd⟩
    obtain ⟨hops, hbind⟩ := List.head?_eq_some_iff.1 hc
    obtain ⟨hops', hproxy⟩ := List.head?_eq_some_iff.1 hd
    obtain ⟨bind, proxy⟩ := c
    obtain ⟨bind', proxy'⟩ := d
    cases hbind
    cases hproxy
    exact hno path hops proxy bind' path hops' rfl

theorem takeOver_eq_none_iff {e i : List Chain} : takeOver e i = none ↔
    ∀ c d, e = [c] → i = [d] → Meet c d → c.bind.length ≠ 1 := by
  constructor
  · rintro h ⟨bind, proxy⟩ ⟨bind', proxy'⟩ rfl rfl ⟨path, hc, hd⟩ hlen
    obtain ⟨_, rfl⟩ := List.length_eq_one_iff.1 hlen
    obtain ⟨hops', rfl⟩ := List.head?_eq_some_iff.1 hd
    cases hc
    simp [takeOver] at h
  · intro h
    unfold takeOver
    split
    next path proxy bind path' hops =>
      rw [if_neg]
      rintro rfl
      exact h _ _ rfl rfl ⟨path, rfl, rfl⟩ rfl
    · rfl

theorem takeBack_eq_none_iff {e i : List Chain} : takeBack e i = none ↔
    ∀ c d, e = [c] → i = [d] → Meet c d → d.proxy.length ≠ 1 := by
  constructor
  · rintro h ⟨bind, proxy⟩ ⟨bind', proxy'⟩ rfl rfl ⟨path, hc, hd⟩ hlen
    obtain ⟨_, rfl⟩ := List.length_eq_one_iff.1 hlen
    obtain ⟨hops, rfl⟩ := List.head?_eq_some_iff.1 hc
    cases hd
    simp [takeBack] at h
  · intro h
    unfold takeBack
    split
    next path hops proxy bind path' =>
      rw [if_neg]
      rintro rfl
      exact h _ _ rfl rfl ⟨path, rfl, rfl⟩ rfl
    · rfl

@[simp] theorem takeOver_nil_right (e : List Chain) : takeOver e [] = none :=
  takeOver_eq_none_iff.2 fun _ _ _ h => nomatch h

@[simp] theorem takeBack_nil_left (i : List Chain) : takeBack [] i = none :=
  takeBack_eq_none_iff.2 fun _ _ h => nomatch h

theorem takeOver_eq_some {e i l : List Chain} (h : takeOver e i = some l) : ∃ c, l = [c] := by
  unfold takeOver at h
  split at h
  · split at h
    · cases h
      exact ⟨_, rfl⟩
    · cases h
  · cases h

/-- What a hub takes back is dialed as what it ran before. -/
theorem takeBack_eq_some {e i l : List Chain} (h : takeBack e i = some l) :
    ∃ c c', e = [c] ∧ l = [c'] ∧ c'.proxy = c.proxy := by
  unfold takeBack at h
  split at h
  · split at h
    · cases h
      exact ⟨_, _, rfl, rfl, rfl⟩
    · cases h
  · cases h

/-- Whether a chain is taken over depends on what the next hub dials, not on what it binds. -/
theorem takeOver_of_proxy {e : List Chain} {c d : Chain} (h : d.proxy = c.proxy)
    (hnone : takeOver e [c] = none) : takeOver e [d] = none := by
  rw [takeOver_eq_none_iff] at hnone ⊢
  rintro b _ rfl hd ⟨path, hbind, hdial⟩
  cases hd
  exact hnone b c rfl rfl ⟨path, hbind, h ▸ hdial⟩

/-! ## Nothing is left to fuse -/

theorem fused_fuseAll (cs : Chains) : cs.fuseAll.Fused := by
  intro hub c d h
  rw [own_fuseAll] at h
  exact not_meet_of_fuse h

/-- Where two hubs run one chain together or none, there are no two chains to fuse. -/
theorem Fused.insert_insert {cs : Chains} (h : cs.Fused) (a b : String) {l l' : List Chain}
    (hl : l.length ≤ 1) (hl' : l'.length ≤ 1) :
    Fused (SortedMap.insert (cs.insert a l) b l') := by
  intro hub c d hown
  rw [own_insert, own_insert] at hown
  split at hown
  · subst hown
    exact absurd hl' (by simp)
  · split at hown
    · subst hown
      exact absurd hl (by simp)
    · exact h hub c d hown

theorem fused_foldExport {cs : Chains} (h : cs.Fused) (pair : String × String) :
    (cs.foldExport pair).Fused := by
  obtain ⟨a, b⟩ := pair
  rw [foldExport_eq]
  split
  next l hl =>
    obtain ⟨c, rfl⟩ := takeOver_eq_some hl
    exact h.insert_insert b a (Nat.le_refl 1) (Nat.zero_le 1)
  · exact h

theorem fused_foldImport {cs : Chains} (h : cs.Fused) (pair : String × String) :
    (cs.foldImport pair).Fused := by
  obtain ⟨a, b⟩ := pair
  rw [foldImport_eq]
  split
  next l hl =>
    obtain ⟨-, c, -, rfl, -⟩ := takeBack_eq_some hl
    exact h.insert_insert a b (Nat.le_refl 1) (Nat.zero_le 1)
  · exact h

theorem fused_foldExports {cs : Chains} (h : cs.Fused) (way : List String) :
    (foldExports way cs).Fused :=
  List.foldlRecOn _ foldExport h fun _ hfused pair _ => fused_foldExport hfused pair

theorem fused_foldImports {cs : Chains} (h : cs.Fused) (way : List String) :
    (foldImports way cs).Fused :=
  List.foldrRecOn _ _ h fun _ hfused pair _ => fused_foldImport hfused pair

/-! ## No pair is left -/

/-- A hub whose turn it is keeps what it runs or gives it away. -/
theorem handOver_eq_cons (x : String × List Chain) (rest : List (String × List Chain)) :
    ∃ l rest', handOver x rest = (x.1, l) :: rest' ∧ (l = x.2 ∨ l = []) := by
  cases rest with
  | nil => exact ⟨x.2, [], rfl, .inl rfl⟩
  | cons y rest =>
    rw [handOver]
    split
    · exact ⟨[], _, rfl, .inr rfl⟩
    · exact ⟨x.2, _, rfl, .inl rfl⟩

theorem isChain_handOver (x : String × List Chain) (rest : List (String × List Chain)) :
    (handOver x rest).IsChain fun x y => takeOver x.2 y.2 = none := by
  induction rest generalizing x with
  | nil => exact .singleton x
  | cons y rest ih =>
    rw [handOver]
    split
    next l hl =>
      obtain ⟨l', rest', hcons, -⟩ := handOver_eq_cons (y.1, l) rest
      have hrest := ih (y.1, l)
      rw [hcons] at hrest ⊢
      exact .cons_cons (takeOver_nil_left l') hrest
    next hnone =>
      obtain ⟨l', rest', hcons, hl'⟩ := handOver_eq_cons y rest
      have hrest := ih y
      rw [hcons] at hrest ⊢
      refine .cons_cons ?_ hrest
      rcases hl' with rfl | rfl
      · exact hnone
      · exact takeOver_nil_right x.2

/-- A hub that is emptied makes no pair with the hubs before and after it. -/
theorem isChain_cons_emptied (P : List Chain → List Chain → Prop) (hbefore : ∀ l, P l [])
    (hafter : ∀ l, P [] l) (x y : String × List Chain) {rest : List (String × List Chain)}
    (h : (y :: rest).IsChain fun x y => P x.2 y.2) :
    (x :: (y.1, []) :: rest).IsChain fun x y => P x.2 y.2 := by
  refine .cons_cons (hbefore x.2) ?_
  cases rest with
  | nil => exact .singleton _
  | cons z rest => exact .cons_cons (hafter z.2) h.tail

theorem isChain_gather (xs : List (String × List Chain)) :
    (gather xs).IsChain fun x y => takeBack x.2 y.2 = none := by
  induction xs with
  | nil => exact .nil
  | cons x xs ih =>
    rw [gather]
    cases hg : gather xs with
    | nil => exact .singleton x
    | cons y rest =>
      rw [hg] at ih
      simp only
      split
      · exact isChain_cons_emptied (takeBack · · = none) takeBack_nil_right takeBack_nil_left _ y
          ih
      next hnone => exact .cons_cons hnone ih

/-- A hub that takes a chain back dials what it dialed before. -/
theorem gather_eq_cons (x : String × List Chain) (rest : List (String × List Chain)) :
    ∃ l rest', gather (x :: rest) = (x.1, l) :: rest' ∧
      (l = x.2 ∨ ∃ c c', x.2 = [c] ∧ l = [c'] ∧ c'.proxy = c.proxy) := by
  rw [gather]
  split
  · exact ⟨x.2, _, rfl, .inl rfl⟩
  · split
    next hl => exact ⟨_, _, rfl, .inr (takeBack_eq_some hl)⟩
    · exact ⟨x.2, _, rfl, .inl rfl⟩

/-- Gathering opens no pair for handing over. -/
theorem isChain_gather_of_takeOver {xs : List (String × List Chain)}
    (h : xs.IsChain fun x y => takeOver x.2 y.2 = none) :
    (gather xs).IsChain fun x y => takeOver x.2 y.2 = none := by
  induction xs with
  | nil => exact .nil
  | cons x xs ih =>
    have ih' := ih h.tail
    rw [gather]
    cases hg : gather xs with
    | nil => exact .singleton x
    | cons y rest =>
      rw [hg] at ih'
      simp only
      split
      · exact isChain_cons_emptied (takeOver · · = none) takeOver_nil_right takeOver_nil_left _ y
          ih'
      · refine .cons_cons ?_ ih'
        cases xs with
        | nil => cases hg
        | cons y₀ xs =>
          obtain ⟨l, rest', hcons, hl⟩ := gather_eq_cons y₀ xs
          rw [hg] at hcons
          cases hcons
          have hbefore := (List.isChain_cons_cons.1 h).1
          rcases hl with rfl | ⟨c, c', hy₀, rfl, hproxy⟩
          · exact hbefore
          · rw [hy₀] at hbefore
            exact takeOver_of_proxy hproxy hbefore

/-! ## All passes -/

theorem isChain_along_iff (P : List Chain → List Chain → Prop) {cs : Chains} {way : List String} :
    ((cs.along way).IsChain fun x y => P x.2 y.2) ↔
      ∀ pair ∈ neighbours way, P (cs.own pair.1) (cs.own pair.2) := by
  induction way with
  | nil => exact ⟨fun _ _ h => (nomatch h), fun _ => .nil⟩
  | cons a rest ih =>
    cases rest with
    | nil => exact ⟨fun _ _ h => (nomatch h), fun _ => .singleton _⟩
    | cons b rest =>
      rw [neighbours_cons_cons, List.forall_mem_cons, ← ih]
      exact List.isChain_cons_cons

/-- After the passes along a way without repeats, none of them finds a pair. -/
theorem none_of_passes {way : List String} (nodup : way.Nodup) (cs : Chains) :
    let ds := foldImports way (foldExports way cs)
    ∀ pair ∈ neighbours way, takeOver (ds.own pair.1) (ds.own pair.2) = none ∧
      takeBack (ds.own pair.1) (ds.own pair.2) = none := by
  intro ds
  cases way with
  | nil => exact fun _ h => nomatch h
  | cons a rest =>
    have hover := isChain_gather_of_takeOver (isChain_handOver (a, cs.own a) (cs.along rest))
    have hback := isChain_gather (handOver (a, cs.own a) (cs.along rest))
    have hgather : ds.along (a :: rest) = gather (handOver (a, cs.own a) (cs.along rest)) := by
      rw [along_foldImports _ nodup, along_foldExports cs nodup]
    rw [← hgather] at hover hback
    exact fun pair hp => ⟨(isChain_along_iff (takeOver · · = none)).1 hover pair hp,
      (isChain_along_iff (takeBack · · = none)).1 hback pair hp⟩

theorem own_merge (way : List String) (cs : Chains) (hub : String) :
    own (cs.merge way) hub = own (foldImports way (foldExports way cs.fuseAll)) hub := by
  by_cases h : own (foldImports way (foldExports way cs.fuseAll)) hub = []
  · cases hg : (cs.merge way).get? hub with
    | none => rw [own, hg, h]; rfl
    | some l => exact absurd h ((get?_merge.1 hg).1 ▸ (get?_merge.1 hg).2)
  · rw [own, get?_merge.2 ⟨rfl, h⟩]
    rfl

theorem irreducible_merge {way : List String} (nodup : way.Nodup) (cs : Chains) :
    (cs.merge way).Irreducible way where
  busy hub h := (get?_merge.1 h).2 rfl
  fused hub c d h := by
    rw [own_merge] at h
    exact fused_foldImports (fused_foldExports cs.fused_fuseAll way) way hub c d h
  apart pair hpair c d hc hd hmeet := by
    rw [own_merge] at hc hd
    obtain ⟨hover, hback⟩ := none_of_passes nodup cs.fuseAll pair hpair
    exact ⟨takeOver_eq_none_iff.1 hover c d hc hd hmeet,
      takeBack_eq_none_iff.1 hback c d hc hd hmeet⟩

theorem foldExports_of_none {way : List String} {cs : Chains}
    (h : ∀ pair ∈ neighbours way, takeOver (cs.own pair.1) (cs.own pair.2) = none) :
    foldExports way cs = cs := by
  unfold foldExports
  refine List.foldlRecOn (motive := (· = cs)) _ _ rfl fun ds hds pair hp => ?_
  rw [hds, foldExport_eq, h pair hp]

theorem foldImports_of_none {way : List String} {cs : Chains}
    (h : ∀ pair ∈ neighbours way, takeBack (cs.own pair.1) (cs.own pair.2) = none) :
    foldImports way cs = cs := by
  unfold foldImports
  refine List.foldrRecOn (motive := (· = cs)) _ _ rfl fun ds hds pair hp => ?_
  rw [hds, foldImport_eq, h pair hp]

theorem fuseAll_of_fused {cs : Chains} (h : cs.Fused) : cs.fuseAll = cs := by
  refine SortedMap.ext_get? fun hub => ?_
  unfold fuseAll
  rw [SortedMap.get?_map]
  cases hget : cs.get? hub with
  | none => rfl
  | some l =>
    have hown : cs.own hub = l := by rw [own, hget]; rfl
    exact congrArg some (fuse_of_not_meet fun c d he => h hub c d (hown.trans he))

theorem merge_of_irreducible {way : List String} {cs : Chains} (h : cs.Irreducible way) :
    cs.merge way = cs := by
  have hover : foldExports way cs = cs := foldExports_of_none fun pair hp =>
    takeOver_eq_none_iff.2 fun c d hc hd hmeet => (h.apart pair hp c d hc hd hmeet).1
  have hback : foldImports way cs = cs := foldImports_of_none fun pair hp =>
    takeBack_eq_none_iff.2 fun c d hc hd hmeet => (h.apart pair hp c d hc hd hmeet).2
  unfold merge
  rw [fuseAll_of_fused h.fused, hover, hback]
  refine SortedMap.ext_get? fun hub => ?_
  rw [SortedMap.get?_filter]
  cases hget : cs.get? hub with
  | none => rfl
  | some l =>
    have hne : l ≠ [] := fun he => h.busy hub (he ▸ hget)
    simp [Option.filter, hne]

/-- Merging a second time along a way without repeats changes nothing, whatever the chains and
whoever runs them. Merging leaves just those chains as they are that cannot be merged. -/
theorem merge_idempotent {way : List String} (nodup : way.Nodup) (cs : Chains) :
    (cs.merge way).merge way = cs.merge way ∧
    (cs.merge way = cs ↔ cs.Irreducible way) := by
  refine ⟨merge_of_irreducible (irreducible_merge nodup cs), fun h => ?_, merge_of_irreducible⟩
  rw [← h]
  exact irreducible_merge nodup cs

/-- The way of `tangled`. -/
def tangledWay : List String := ["a", "b", "c", "d"]

/-- Chains that all three passes merge, one after the other. Some have empty stacks, and two of the
hubs are not on the way. -/
def tangled : Chains :=
  ((((((∅ : Chains).insert "a" [⟨[.unix "/s"], [.tcp "web" 80]⟩]).insert
    "b" [⟨[.unix "/u"], [.unix "/s"]⟩, ⟨[.unix "/t", .listen 7], [.unix "/u"]⟩]).insert
    "c" [⟨[], [.unix "/t"]⟩]).insert "d" [⟨[], []⟩]).insert
    "y" [⟨[.unix "/v"], []⟩, ⟨[], [.unix "/v"]⟩]).insert "z" []

theorem merge_idempotent_tangled : tangledWay.Nodup ∧
    tangled.merge tangledWay =
      .ofList [("b", ⟨[.listen 7], [.tcp "web" 80]⟩), ("d", ⟨[], []⟩), ("y", ⟨[], []⟩)] ∧
    (tangled.merge tangledWay).merge tangledWay = tangled.merge tangledWay ∧
    ¬ tangled.Irreducible tangledWay := by
  have nodup : tangledWay.Nodup := by decide
  obtain ⟨htwice, hiff⟩ := merge_idempotent nodup tangled
  have hmerged : tangled.merge tangledWay ≠ tangled := by decide +kernel
  exact ⟨nodup, by decide +kernel, htwice, fun h => hmerged (hiff.2 h)⟩

end HubFederation.Chains
