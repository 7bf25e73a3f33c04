import HubFederation.Proofs.AllowList.Merging
import HubFederation.Proofs.Chain.Grants
import Mathlib.Data.List.Forall2

/-!
# Hubs grant what chains ask for

`Chains.authorize` walks all chains of all hubs and has each hub that a chain dials grant
what the chain asks for there. A grant that is missing breaks a tunnel, and one that no
chain asks for opens a hub.

* `Bounds.Reflects`: the invariant of the walk, for the chains walked so far.
* `authorize_symmetric`: a hub grants a peer a target if and only if a chain that the peer
  runs asks for it, and grants nothing by default; every hub runs the chains it was given.
-/
namespace HubFederation

namespace Permission

/-- Allows some targets, in ascending order, and says nothing else. -/
def Plain (p : Permission) : Prop :=
  p.default = none ∧ p.blocks = [] ∧ p.allows.Pairwise (· < ·)

theorem plain_empty : (∅ : Permission).Plain := ⟨rfl, rfl, .nil⟩

theorem Plain.merge {p q : Permission} (hp : p.Plain) (hq : q.Plain) : (p.merge q).Plain := by
  have hd : agree p.default q.default = none := by rw [hp.1, hq.1, agree, if_pos rfl]
  have hb : union p.blocks q.blocks = [] := by rw [hp.2.1, hq.2.1]; rfl
  exact ⟨hd, hb, sorted_union _ _⟩

theorem plain_allow (kind kind' : RequestKind) (target : String) :
    ((AllowList.allow kind target).permission kind').Plain := by
  rw [AllowList.permission_allow]
  split
  · exact ⟨rfl, rfl, List.pairwise_singleton ..⟩
  · exact plain_empty

end Permission

namespace Chain

/-- `c'` is `c` with every SSH hop behind a local end logging in as `runner`. -/
def LogsIn (runner identityFile : String) (c c' : Chain) : Prop :=
  ∀ (side : Side) (i : Nat), (c'.stack side)[i]? = match i, (c.stack side)[i]? with
    | _ + 1, some (.ssh hop) => some (.ssh { hop with
        user := some runner, params := hop.params.insert SshHop.identityFileParam identityFile })
    | _, e => e

theorem logsIn_authenticate (runner identityFile : String) (c : Chain) :
    c.LogsIn runner identityFile (c.authenticate runner identityFile) := by
  intro side i
  have h : (c.authenticate runner identityFile).stack side =
      authenticateStack runner identityFile (c.stack side) := by cases side <;> rfl
  rw [h, getElem?_authenticateStack]
  cases (c.stack side)[i]? with
  | none => cases i <;> rfl
  | some e => cases i <;> cases e <;> rfl

end Chain

namespace Bounds

/-- What a hub grants a peer for requests of one kind. -/
def permission (bs : Bounds) (hub peer : String) (kind : RequestKind) : Permission :=
  ((bs.getD hub .empty).inbound.getD peer ∅).permission kind

/-- The chains that a hub runs. -/
def outbound (bs : Bounds) (hub : String) : List Chain := (bs.getD hub .empty).outbound

/-- No bound is empty, and every permission is plain. -/
structure Tidy (bs : Bounds) : Prop where
  plain : ∀ hub peer kind, (bs.permission hub peer kind).Plain
  nonempty : ∀ hub b, bs.get? hub = some b → b.isEmpty = false

/-! ## One more grant -/

theorem permission_addGrant (runner : String) (bs : Bounds) (g : Grant) (hub peer : String)
    (kind : RequestKind) : (addGrant runner bs g).permission hub peer kind =
      if hub = g.hub ∧ peer = runner then
        (bs.permission hub peer kind).merge ((AllowList.allow g.kind g.target).permission kind)
      else bs.permission hub peer kind := by
  unfold permission addGrant SortedMap.getD
  rw [SortedMap.get?_alter]
  by_cases hh : hub = g.hub
  · subst hh
    rw [if_pos rfl, Option.getD_some, SortedMap.get?_alter]
    by_cases hp : peer = runner
    · subst hp
      simp
    · simp [hp]
  · simp [hh]

theorem outbound_addGrant (runner : String) (bs : Bounds) (g : Grant) (hub : String) :
    (addGrant runner bs g).outbound hub = bs.outbound hub := by
  unfold outbound addGrant SortedMap.getD
  rw [SortedMap.get?_alter]
  split
  next h => subst h; rfl
  · rfl

theorem Tidy.addGrant {bs : Bounds} (h : bs.Tidy) (runner : String) (g : Grant) :
    (addGrant runner bs g).Tidy where
  plain hub peer kind := by
    rw [permission_addGrant]
    split
    · exact (h.plain hub peer kind).merge (Permission.plain_allow g.kind kind g.target)
    · exact h.plain hub peer kind
  nonempty hub b hb := by
    unfold Bounds.addGrant at hb
    rw [SortedMap.get?_alter] at hb
    split at hb
    · cases hb
      have hp : (SortedMap.alter ((bs.get? g.hub).getD .empty).inbound runner fun present =>
          (present.getD ∅).merge (.allow g.kind g.target)).isEmpty = false := by
        rw [SortedMap.isEmpty_eq_false_iff]
        exact ⟨runner, by simp [SortedMap.get?_alter]⟩
      simp [Bound.isEmpty, hp]
    · exact h.nonempty hub b hb

/-! ## One more chain to run -/

theorem permission_addOutbound (runner : String) (bs : Bounds) (c : Chain) (hub peer : String)
    (kind : RequestKind) :
    (addOutbound runner bs c).permission hub peer kind = bs.permission hub peer kind := by
  unfold permission addOutbound SortedMap.getD
  rw [SortedMap.get?_alter]
  split
  next h => subst h; rfl
  · rfl

theorem outbound_addOutbound (runner : String) (bs : Bounds) (c : Chain) (hub : String) :
    (addOutbound runner bs c).outbound hub =
      bs.outbound hub ++ if hub = runner then [c] else [] := by
  unfold outbound addOutbound SortedMap.getD
  rw [SortedMap.get?_alter]
  split
  next h => subst h; rfl
  · simp

theorem Tidy.addOutbound {bs : Bounds} (h : bs.Tidy) (runner : String) (c : Chain) :
    (addOutbound runner bs c).Tidy where
  plain hub peer kind := by
    rw [permission_addOutbound]
    exact h.plain hub peer kind
  nonempty hub b hb := by
    unfold Bounds.addOutbound at hb
    rw [SortedMap.get?_alter] at hb
    split at hb
    · cases hb; simp [Bound.isEmpty]
    · exact h.nonempty hub b hb

/-! ## All grants of a chain -/

theorem mem_allows_addGrants {runner hub peer target : String} {kind : RequestKind}
    {gs : List Grant} {bs : Bounds} :
    target ∈ ((gs.foldl (addGrant runner) bs).permission hub peer kind).allows ↔
      target ∈ (bs.permission hub peer kind).allows ∨ peer = runner ∧ ⟨hub, kind, target⟩ ∈ gs := by
  induction gs generalizing bs with
  | nil => simp
  | cons g gs ih =>
    have hone : target ∈ ((addGrant runner bs g).permission hub peer kind).allows ↔
        target ∈ (bs.permission hub peer kind).allows ∨
          peer = runner ∧ ⟨hub, kind, target⟩ = g := by
      obtain ⟨hub', kind', target'⟩ := g
      rw [permission_addGrant, Grant.mk.injEq]
      split
      next h =>
        rw [AllowList.permission_allow]
        unfold Permission.merge
        rw [Permission.mem_union]
        by_cases hk : kind = kind'
        · simp [h, hk]
        · simp [h, hk, show (∅ : Permission).allows = [] from rfl]
      next h => grind
    rw [List.foldl_cons, ih, hone, List.mem_cons]
    grind

theorem outbound_addGrants (runner hub : String) (gs : List Grant) (bs : Bounds) :
    (gs.foldl (addGrant runner) bs).outbound hub = bs.outbound hub := by
  induction gs generalizing bs with
  | nil => rfl
  | cons g gs ih => rw [List.foldl_cons, ih, outbound_addGrant]

theorem tidy_addGrants {runner : String} (gs : List Grant) {bs : Bounds} (h : bs.Tidy) :
    (gs.foldl (addGrant runner) bs).Tidy := by
  induction gs generalizing bs with
  | nil => exact h
  | cons g gs ih => exact ih (h.addGrant runner g)

/-! ## The walk over all chains -/

/-- The bounds hold what the chains of `runs`, each with the hub that runs it, come to. -/
structure Reflects (identityFile : String) (runs : List (String × Chain)) (bs : Bounds) : Prop
    extends Tidy bs where
  granted : ∀ hub peer kind target, target ∈ (bs.permission hub peer kind).allows ↔
    ∃ c, (peer, c) ∈ runs ∧ c.Asks hub kind target
  runs : ∀ hub, bs.outbound hub =
    (runs.filter (·.1 = hub)).map fun r => r.2.authenticate hub identityFile

theorem reflects_empty (identityFile : String) : Reflects identityFile [] ∅ where
  plain _ _ kind := by cases kind <;> exact Permission.plain_empty
  nonempty _ _ h := by cases h
  granted hub peer kind target := by
    constructor
    · intro h; cases kind <;> cases h
    · intro ⟨c, h, _⟩; cases h
  runs _ := rfl

/-- One more chain adds itself to what its hub runs and what it asks for to the grants. -/
theorem Reflects.addChain {identityFile : String} {runs : List (String × Chain)} {bs : Bounds}
    (h : Reflects identityFile runs bs) (runner : String) (c : Chain) :
    Reflects identityFile (runs ++ [(runner, c)]) (addChain identityFile runner bs c) where
  toTidy := (tidy_addGrants c.grants h.toTidy).addOutbound runner _
  granted hub peer kind target := by
    unfold Bounds.addChain
    rw [permission_addOutbound, mem_allows_addGrants, h.granted, Chain.mem_grants_iff]
    constructor
    · intro hasked
      rcases hasked with ⟨c', hc, ha⟩ | ⟨rfl, ha⟩
      · exact ⟨c', List.mem_append_left _ hc, ha⟩
      · exact ⟨c, by simp, ha⟩
    · intro ⟨c', hc, ha⟩
      rcases List.mem_append.1 hc with hc | hc
      · exact .inl ⟨c', hc, ha⟩
      · cases List.mem_singleton.1 hc
        exact .inr ⟨rfl, ha⟩
  runs hub := by
    unfold Bounds.addChain
    rw [outbound_addOutbound, outbound_addGrants, h.runs, List.filter_append, List.map_append]
    by_cases hr : hub = runner
    · subst hr; simp
    · simp [hr, Ne.symm hr]

theorem reflects_addChains {identityFile : String} (more : List (String × Chain))
    {runs : List (String × Chain)} {bs : Bounds} (h : Reflects identityFile runs bs) :
    Reflects identityFile (runs ++ more)
      (more.foldl (fun bs r => addChain identityFile r.1 bs r.2) bs) := by
  induction more generalizing runs bs with
  | nil => rwa [List.append_nil]
  | cons r more ih =>
    rw [List.foldl_cons, List.append_cons]
    exact ih (h.addChain r.1 r.2)

end Bounds

namespace Chains

/-- All chains, each with the hub that runs it. -/
def runs (cs : Chains) : List (String × Chain) :=
  cs.entries.flatMap fun e => e.2.map fun c => (e.1, c)

theorem mem_runs {cs : Chains} {hub : String} {c : Chain} :
    (hub, c) ∈ cs.runs ↔ c ∈ cs.own hub := by
  unfold runs own
  rw [List.mem_flatMap]
  constructor
  · intro ⟨⟨hub', l⟩, he, hc⟩
    obtain ⟨c', hc, hr⟩ := List.mem_map.1 hc
    cases hr
    rwa [SortedMap.mem_entries_iff.1 he]
  · intro hc
    cases hl : cs.get? hub with
    | none => rw [hl] at hc; cases hc
    | some l =>
      rw [hl] at hc
      exact ⟨(hub, l), SortedMap.mem_entries_iff.2 hl, List.mem_map.2 ⟨c, hc, rfl⟩⟩

/-- The entries of a hub hold its chains, and those of no other do. -/
theorem filter_runs (cs : Chains) (hub : String) :
    cs.runs.filter (·.1 = hub) = (cs.own hub).map (hub, ·) := by
  have h : ∀ es : List (String × List Chain),
      es.Pairwise (fun a b => compare a.1 b.1 = .lt) →
      (es.flatMap fun e => e.2.map fun c => (e.1, c)).filter (·.1 = hub) =
        ((SortedMap.find hub es).getD []).map (hub, ·) := by
    intro es hs
    induction es with
    | nil => rfl
    | cons e es ih =>
      rw [List.pairwise_cons] at hs
      rw [List.flatMap_cons, List.filter_append, ih hs.2, SortedMap.find]
      by_cases he : hub = e.1
      · have hrest : SortedMap.find hub es = none := by
          refine SortedMap.find_eq_none fun e' he' hc => ?_
          have := hs.1 e' he'
          rw [← he, ← Key.eq_of_cmp hc] at this
          exact Key.lt_irrefl hub this
        subst he
        simp [hrest, List.filter_map, Function.comp_def]
      · rw [if_neg fun hc => he (Key.eq_of_cmp hc)]
        simp [List.filter_map, Function.comp_def, Ne.symm he]
  exact h cs.entries cs.sorted

/-- Bounds that hold exactly what chains come to: every grant is asked for by a chain that
the peer runs, every target that such a chain asks for is granted, and every hub runs its
chains in order, logging in under its own name. -/
structure Symmetric (cs : Chains) (identityFile : String) (bs : Bounds) : Prop where
  granted : ∀ hub peer kind target, target ∈ (bs.permission hub peer kind).allows ↔
    ∃ c ∈ cs.own peer, c.Asks hub kind target
  plain : ∀ hub peer kind, (bs.permission hub peer kind).Plain
  nonempty : ∀ hub b, bs.get? hub = some b → b.isEmpty = false
  outbound : ∀ hub,
    List.Forall₂ (Chain.LogsIn hub identityFile) (cs.own hub) (bs.outbound hub)

theorem reflects_authorize (cs : Chains) (identityFile : String) :
    Bounds.Reflects identityFile cs.runs (cs.authorize identityFile) := by
  have hfold : cs.authorize identityFile =
      cs.runs.foldl (fun bs r => Bounds.addChain identityFile r.1 bs r.2) ∅ := by
    unfold authorize runs
    rw [List.foldl_flatMap]
    simp only [List.foldl_map]
  rw [hfold]
  exact Bounds.reflects_addChains cs.runs (Bounds.reflects_empty identityFile)

/-- The bounds of chains grant what the chains ask for and no more. -/
theorem authorize_symmetric (cs : Chains) (identityFile : String) :
    cs.Symmetric identityFile (cs.authorize identityFile) := by
  have h := reflects_authorize cs identityFile
  refine ⟨fun hub peer kind target => ?_, h.plain, h.nonempty, fun hub => ?_⟩
  · simp only [h.granted, mem_runs]
  · rw [h.runs, filter_runs, List.map_map, List.forall₂_map_right_iff]
    exact List.forall₂_same.2 fun c _ => c.logsIn_authenticate hub identityFile

end Chains

end HubFederation
