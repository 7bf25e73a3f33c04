import HubFederation.Proofs.Registry.Moves

/-!
# Who waits for a client is asked for once

A hub waits for a client if it declares something, has a kubeconfig and has no client. All
that can give it one is an init of its current generation, so there has to be one at any time:
in the queue, connecting or backing off. There is never a second one, and no hub that does not
wait is asked for.

* `Accounted`: the inits that are outstanding, told by the hubs.
* `accounted_step`: a move keeps the account.
* `asked_once`: so it is right after every run.
-/
namespace HubFederation

/-- A hub can be reached, and there is no client for it. -/
def HubState.awaitsClient (h : HubState) : Bool :=
  h.spec.isSome && h.kubeconfig.isSome && h.client.isNone

theorem HubState.Alike.awaitsClient {h h' : HubState} (ha : h.Alike h') :
    h'.awaitsClient = h.awaitsClient := by
  unfold HubState.awaitsClient
  rw [ha.declared, ha.kubeconfig, ha.client]

/-- An init asks for a hub that can be reached, with its kubeconfig. -/
theorem HubState.of_mem_init? {h : HubState} {name : String} {generation : Nat} {init : Init}
    (hinit : init ∈ h.init? name generation) :
    init.hub = name ∧ init.generation = generation ∧ h.kubeconfig = some init.kubeconfig := by
  unfold HubState.init? at hinit
  split at hinit
  next _ hkubeconfig =>
    cases hinit
    exact ⟨rfl, rfl, hkubeconfig⟩
  · cases hinit

namespace Registry

variable {r r' : Registry}

theorem alike_hub (hubs : ∀ n, Option.Rel HubState.Like (r.hubs.get? n) (r'.hubs.get? n))
    (n : String) : (r.hub n).Alike (r'.hub n) := by
  have hn := hubs n
  unfold hub SortedMap.getD
  generalize r.hubs.get? n = h at hn ⊢
  generalize r'.hubs.get? n = h' at hn ⊢
  cases hn with
  | none => exact (HubState.Like.refl HubState.empty).toAlike
  | some hlike => exact hlike.toAlike

theorem hub_of_hubs (hubs : r'.hubs = r.hubs) (n : String) : r'.hub n = r.hub n := by
  unfold hub
  rw [hubs]

theorem isCurrent_iff {n : String} {generation : Nat} :
    r.isCurrent n generation = true ↔
      (r.hub n).generation = generation ∧ (r.hub n).spec.isSome = true := by
  unfold isCurrent hub SortedMap.getD
  cases r.hubs.get? n with
  | none => simp [HubState.empty]
  | some h => simp

/-- Taking in a client gives the hub that client, and leaves all else that is known of hubs. -/
theorem hub_install (r : Registry) (init : Init) (found : Recovery.Bindings)
    (hknown : (r.hub init.hub).spec.isSome = true) (n : String) :
    (r.install init found).hub n =
      if n = init.hub then { r.hub n with client := some init.kubeconfig } else r.hub n := by
  have hget : (r.install init found).hubs.get? n = if n = init.hub then
      (r.hubs.get? init.hub).map fun h => { h with client := some init.kubeconfig }
      else r.hubs.get? n :=
    r.hubs.get?_modify init.hub n _
  rw [hub_eq_of_get? hget]
  split
  next hn =>
    rw [hn]
    cases hh : r.hubs.get? init.hub with
    | none =>
      rw [hub_of_unknown hh] at hknown
      cases hknown
    | some h =>
      rw [hub_of_known hh]
      rfl
  · rfl

end Registry

namespace HubControl

variable {c c' : HubControl}

/-- An init asks for the client of a hub in its current generation. -/
def asksFor (c : HubControl) (name : String) (init : Init) : Bool :=
  init.hub = name && init.generation = (c.registry.hub name).generation

theorem asksFor_iff {name : String} {init : Init} : c.asksFor name init = true ↔
    init.hub = name ∧ init.generation = (c.registry.hub name).generation := by
  unfold asksFor
  rw [Bool.and_eq_true, decide_eq_true_iff, decide_eq_true_iff]

/-- What asks for a hub is told by the generation of the hub. -/
theorem asksFor_congr {name : String}
    (h : (c'.registry.hub name).generation = (c.registry.hub name).generation) :
    c'.asksFor name = c.asksFor name := by
  funext init
  unfold asksFor
  rw [h]

/-- How many of the inits that are outstanding ask for a hub. -/
def asked (c : HubControl) (name : String) : Nat := c.outstanding.countP (c.asksFor name)

/-- The inits that are outstanding are accounted for. -/
structure Accounted (c : HubControl) : Prop where
  bounded : ∀ name, (c.registry.hub name).generation ≤ c.registry.generations
  issued : ∀ init ∈ c.outstanding, 0 < init.generation ∧ init.generation ≤ c.registry.generations
  asked : ∀ name, c.asked name = if (c.registry.hub name).awaitsClient then 1 else 0
  /-- What asks for a hub does so with its kubeconfig. -/
  carried : ∀ init ∈ c.outstanding, c.asksFor init.hub init →
    (c.registry.hub init.hub).kubeconfig = some init.kubeconfig
  /-- A client was built from the kubeconfig of its hub. -/
  built : ∀ name kubeconfig, (c.registry.hub name).client = some kubeconfig →
    (c.registry.hub name).spec.isSome ∧ (c.registry.hub name).kubeconfig = some kubeconfig

theorem accounted_ofInfo (info : ClusterInfo) : (ofInfo info).Accounted where
  bounded _ := Nat.le_refl 0
  issued _ h := nomatch h
  asked _ := rfl
  carried _ h := nomatch h
  built _ _ h := nomatch h

namespace Accounted

/-- What asks for a hub is current. -/
theorem isCurrent (ha : c.Accounted) {init : Init} (hmem : init ∈ c.outstanding)
    (hasks : c.asksFor init.hub init = true) : c.isCurrent init = true := by
  have hpos : 0 < c.asked init.hub := List.countP_pos_iff.2 ⟨init, hmem, hasks⟩
  rw [ha.asked] at hpos
  have hawaits : (c.registry.hub init.hub).awaitsClient = true := by
    split at hpos
    next h => exact h
    · exact absurd hpos (Nat.lt_irrefl 0)
  unfold HubState.awaitsClient at hawaits
  simp only [Bool.and_eq_true] at hawaits
  exact Registry.isCurrent_iff.2 ⟨(asksFor_iff.1 hasks).2.symm, hawaits.1.1⟩

/-- Nothing changes in the account if no hub changes and what asks for hubs stays. -/
theorem of_alike (ha : c.Accounted)
    (hubs : ∀ n, (c.registry.hub n).Alike (c'.registry.hub n))
    (generations : c'.registry.generations = c.registry.generations)
    (subset : ∀ init ∈ c'.outstanding, init ∈ c.outstanding)
    (count : ∀ n, c'.outstanding.countP (c.asksFor n) = c.asked n) : c'.Accounted := by
  have hasks : c'.asksFor = c.asksFor := funext fun n => asksFor_congr (hubs n).generation
  refine ⟨fun n => ?_, fun init hi => ?_, fun n => ?_, fun init hi h => ?_, fun n k hk => ?_⟩
  · rw [(hubs n).generation, generations]
    exact ha.bounded n
  · rw [generations]
    exact ha.issued init (subset init hi)
  · rw [HubControl.asked, hasks, count, (hubs n).awaitsClient]
    exact ha.asked n
  · rw [hasks] at h
    rw [(hubs init.hub).kubeconfig]
    exact ha.carried init (subset init hi) h
  · rw [(hubs n).client] at hk
    rw [(hubs n).declared, (hubs n).kubeconfig]
    exact ha.built n k hk

/-- An init goes on its way. -/
theorem of_perm (ha : c.Accounted) (hubs : ∀ n, (c.registry.hub n).Alike (c'.registry.hub n))
    (generations : c'.registry.generations = c.registry.generations)
    (perm : c'.outstanding.Perm c.outstanding) : c'.Accounted :=
  ha.of_alike hubs generations (fun _ => perm.mem_iff.1) fun _ => perm.countP_eq _

/-- An init that is out of date asks for no hub. -/
theorem of_drop (ha : c.Accounted) {init : Init} (hubs : c'.registry.hubs = c.registry.hubs)
    (generations : c'.registry.generations = c.registry.generations)
    (perm : c.outstanding.Perm (init :: c'.outstanding)) (stale : c.isCurrent init = false) :
    c'.Accounted := by
  refine ha.of_alike (fun n => ?_) generations (fun i hi => ?_) fun n => ?_
  · rw [Registry.hub_of_hubs hubs]
    exact (HubState.Like.refl _).toAlike
  · exact perm.mem_iff.2 (List.mem_cons_of_mem _ hi)
  · rw [HubControl.asked, perm.countP_eq, List.countP_cons_of_neg]
    intro hasks
    obtain ⟨rfl, -⟩ := asksFor_iff.1 hasks
    have hcurrent := ha.isCurrent (perm.mem_iff.2 (List.mem_cons_self ..)) hasks
    rw [stale] at hcurrent
    cases hcurrent

/-- A hub loses its client, gets a generation that no init has, and is asked for in it if it can
be reached. -/
theorem of_reset (ha : c.Accounted) (name : String) (asking : Option Init)
    (others : ∀ n, n ≠ name → c'.registry.hub n = c.registry.hub n)
    (generations : c.registry.generations ≤ c'.registry.generations)
    (bounded : (c'.registry.hub name).generation ≤ c'.registry.generations)
    (client : (c'.registry.hub name).client = none)
    (perm : c'.outstanding.Perm (asking.toList ++ c.outstanding))
    (overtaken : ∀ init ∈ c.outstanding, init.generation ≠ (c'.registry.hub name).generation)
    (asked : asking.isSome = (c'.registry.hub name).awaitsClient)
    (current : ∀ init ∈ asking, 0 < init.generation ∧ c'.asksFor name init ∧
      (c'.registry.hub name).kubeconfig = some init.kubeconfig) : c'.Accounted := by
  have hasks (n : String) (hn : n ≠ name) : c'.asksFor n = c.asksFor n :=
    asksFor_congr (congrArg HubState.generation (others n hn))
  have hmem (init : Init) (hi : init ∈ c'.outstanding) :
      init ∈ asking ∨ init ∈ c.outstanding := by
    rcases List.mem_append.1 (perm.mem_iff.1 hi) with hi | hi
    · exact .inl (Option.mem_toList.1 hi)
    · exact .inr hi
  refine ⟨fun n => ?_, fun init hi => ?_, fun n => ?_, fun init hi h => ?_, fun n k hk => ?_⟩
  · by_cases hn : n = name
    · rw [hn]
      exact bounded
    · rw [others n hn]
      exact Nat.le_trans (ha.bounded n) generations
  · rcases hmem init hi with hi | hi
    · obtain ⟨hpos, hcurrent, -⟩ := current init hi
      exact ⟨hpos, (asksFor_iff.1 hcurrent).2 ▸ bounded⟩
    · obtain ⟨hpos, hle⟩ := ha.issued init hi
      exact ⟨hpos, Nat.le_trans hle generations⟩
  · rw [HubControl.asked, perm.countP_eq, List.countP_append]
    by_cases hn : n = name
    · have hold : c.outstanding.countP (c'.asksFor name) = 0 :=
        List.countP_eq_zero.2 fun init hi h => overtaken init hi (asksFor_iff.1 h).2
      rw [hn, hold, ← asked]
      cases asking with
      | none => rfl
      | some init => simp [(current init rfl).2.1]
    · have hnew : asking.toList.countP (c'.asksFor n) = 0 := by
        refine List.countP_eq_zero.2 fun init hi h => hn ?_
        obtain ⟨-, hcurrent, -⟩ := current init (Option.mem_toList.1 hi)
        exact (asksFor_iff.1 h).1.symm.trans (asksFor_iff.1 hcurrent).1
      rw [hnew, hasks n hn, others n hn, Nat.zero_add]
      exact ha.asked n
  · rcases hmem init hi with hi | hi
    · obtain ⟨-, hcurrent, hkubeconfig⟩ := current init hi
      rw [(asksFor_iff.1 hcurrent).1]
      exact hkubeconfig
    · have hn : init.hub ≠ name := by
        intro hn
        rw [hn] at h
        exact overtaken init hi (asksFor_iff.1 h).2
      rw [hasks _ hn] at h
      rw [others _ hn]
      exact ha.carried init hi h
  · have hn : n ≠ name := by
      rintro rfl
      rw [client] at hk
      cases hk
    rw [others n hn] at hk ⊢
    exact ha.built n k hk

/-- A hub is reset under the next generation. -/
theorem of_renewed (ha : c.Accounted) {r : Registry} {name : String} {h : HubState}
    (hubs : ∀ n, r.hubs.get? n =
      if n = name then some (h.reset (c.registry.generations + 1)) else c.registry.hubs.get? n)
    (generations : r.generations = c.registry.generations + 1)
    (inits : r.inits = c.registry.inits ++ (h.init? name (c.registry.generations + 1)).toList) :
    Accounted { c with registry := r } := by
  have hself : r.hub name = h.reset (c.registry.generations + 1) :=
    Registry.hub_of_known (by rw [hubs, if_pos rfl])
  have hgeneration : (r.hub name).generation = c.registry.generations + 1 := by
    rw [hself]
    rfl
  refine ha.of_reset name (h.init? name (c.registry.generations + 1)) (fun n hn => ?_)
    (generations ▸ Nat.le_succ _) (Nat.le_of_eq (hgeneration.trans generations.symm))
    (by rw [hself]; rfl) ?_ (fun init hi => ?_) ?_ (fun init hi => ?_)
  · rw [Registry.hub_eq_of_get? (hubs n), if_neg hn]
    rfl
  · unfold outstanding
    simp only [inits, List.append_assoc]
    exact List.perm_append_comm_assoc ..
  · rw [hgeneration]
    exact Nat.ne_of_lt (Nat.lt_succ_of_le (ha.issued init hi).2)
  · rw [hself]
    unfold HubState.init? HubState.awaitsClient
    cases hs : h.spec <;> cases hk : h.kubeconfig <;> simp [HubState.reset, hs, hk]
  · obtain ⟨hhub, hcurrent, hkubeconfig⟩ := HubState.of_mem_init? hi
    refine ⟨hcurrent ▸ Nat.succ_pos _, asksFor_iff.2 ⟨hhub, hcurrent.trans hgeneration.symm⟩, ?_⟩
    rw [hself]
    exact hkubeconfig

/-- A hub that was forgotten has generation zero, and is not asked for. -/
theorem of_forgotten (ha : c.Accounted) {r : Registry} {name : String}
    (hf : c.registry.Forgets name r) : Accounted { c with registry := r } := by
  have hself : (r.hub name).generation = 0 ∧ (r.hub name).awaitsClient = false ∧
      (r.hub name).client = none := by
    rw [Registry.hub_eq_of_get? rfl]
    cases hget : r.hubs.get? name with
    | none => exact ⟨rfl, rfl, rfl⟩
    | some h =>
      obtain ⟨hspec, hgeneration, hblank⟩ := hf.left h hget
      refine ⟨hgeneration, ?_, hblank.client⟩
      unfold HubState.awaitsClient
      rw [Option.getD_some, hspec]
      rfl
  refine ha.of_reset name none (fun n hn => ?_) (Nat.le_of_eq hf.generations.symm)
    (hself.1 ▸ Nat.zero_le _) hself.2.2 (.of_eq ?_) (fun init hi => ?_) hself.2.1.symm
    fun init hi => absurd hi (Option.not_mem_none init)
  · rw [Registry.hub_eq_of_get? (hf.others n hn)]
    rfl
  · unfold outstanding
    simp only [hf.inits]
    rfl
  · rw [hself.1]
    exact Nat.ne_of_gt (ha.issued init hi).1

/-- A client is taken in, and the init that asked for it is gone. -/
theorem of_built (ha : c.Accounted) {init : Init} {found : Recovery.Bindings}
    (current : c.isCurrent init = true)
    (registry : c'.registry = c.registry.install init found)
    (perm : c.outstanding.Perm (init :: c'.outstanding)) : c'.Accounted := by
  obtain ⟨hgeneration, hspec⟩ := Registry.isCurrent_iff.1 current
  have hhub (n : String) := c.registry.hub_install init found hspec n
  rw [← registry] at hhub
  have hasks : c'.asksFor = c.asksFor := by
    funext n
    refine asksFor_congr ?_
    rw [hhub n]
    split <;> rfl
  have hself : c.asksFor init.hub init = true := asksFor_iff.2 ⟨rfl, hgeneration.symm⟩
  have hout : init ∈ c.outstanding := perm.mem_iff.2 (List.mem_cons_self ..)
  have hcount (n : String) := perm.countP_eq (c.asksFor n)
  have hmem (i : Init) (hi : i ∈ c'.outstanding) : i ∈ c.outstanding :=
    perm.mem_iff.2 (List.mem_cons_of_mem _ hi)
  refine ⟨fun n => ?_, fun i hi => ?_, fun n => ?_, fun i hi h => ?_, fun n k hk => ?_⟩
  · rw [hhub n, registry]
    have hbounded := ha.bounded n
    split <;> exact hbounded
  · rw [registry]
    exact ha.issued i (hmem i hi)
  · rw [HubControl.asked, hasks, hhub n]
    have hasked := ha.asked n
    rw [HubControl.asked, hcount n] at hasked
    by_cases hn : n = init.hub
    · -- There was one init that asked for the hub.
      subst hn
      rw [List.countP_cons_of_pos hself] at hasked
      rw [if_pos rfl]
      have hawaits : HubState.awaitsClient
          { c.registry.hub init.hub with client := some init.kubeconfig } = false := by
        simp [HubState.awaitsClient]
      rw [hawaits, if_neg Bool.false_ne_true]
      split at hasked <;> omega
    · rw [List.countP_cons_of_neg fun h => hn (asksFor_iff.1 h).1.symm] at hasked
      rwa [if_neg hn]
  · rw [hasks] at h
    rw [hhub i.hub]
    have hcarried := ha.carried i (hmem i hi) h
    split <;> exact hcarried
  · rw [hhub n] at hk ⊢
    by_cases hn : n = init.hub
    · rw [if_pos hn] at hk ⊢
      cases hk
      rw [hn]
      exact ⟨hspec, ha.carried init hout hself⟩
    · rw [if_neg hn] at hk ⊢
      exact ha.built n k hk

end Accounted

theorem accounted_step (ha : c.Accounted) (m : Move) : (c.step m).Accounted := by
  have heffect := effect_step c m
  generalize c.step m = c' at heffect
  cases heffect with
  | turned turn =>
    cases turn with
    | kept hubs generations inits =>
      refine ha.of_perm (Registry.alike_hub hubs) generations (.of_eq ?_)
      unfold outstanding
      simp only [inits]
    | renewed name h hubs generations inits => exact ha.of_renewed hubs generations inits
  | forgotten forgets => exact ha.of_forgotten forgets
  | passed hubs generations perm =>
    refine ha.of_perm (fun n => ?_) generations perm
    rw [Registry.hub_of_hubs hubs]
    exact (HubState.Like.refl _).toAlike
  | dropped hubs generations perm stale => exact ha.of_drop hubs generations perm stale
  | built _ current registry perm => exact ha.of_built current registry perm
  | @heard name h e _ known hubs generations outstanding =>
    refine ha.of_perm (fun n => ?_) generations (.of_eq outstanding)
    unfold Registry.hub SortedMap.getD
    rw [hubs]
    by_cases hn : n = name
    · rw [hn, SortedMap.get?_insert_self, known]
      exact h.alike_onService e
    · rw [SortedMap.get?_insert_of_ne _ _ hn]
      exact (HubState.Like.refl _).toAlike

theorem accounted_run (ha : c.Accounted) (ms : List Move) : (c.run ms).Accounted := by
  induction ms generalizing c with
  | nil => exact ha
  | cons m ms ih => exact ih (accounted_step ha m)

/-- After every run, a hub that can be reached and has no client is asked for by exactly one
init of its current generation, be it queued, connecting or backing off; any other hub by none.
What asks for a hub carries the kubeconfig that the hub has now. -/
theorem asked_once (info : ClusterInfo) (ms : List Move) (name : String) :
    let c := (ofInfo info).run ms
    c.outstanding.countP (fun init =>
        init.hub = name && init.generation = (c.registry.hub name).generation) =
      (if (c.registry.hub name).awaitsClient then 1 else 0) ∧
    ∀ init ∈ c.outstanding, init.hub = name →
      init.generation = (c.registry.hub name).generation →
      (c.registry.hub name).kubeconfig = some init.kubeconfig := by
  have ha := accounted_run (accounted_ofInfo info) ms
  refine ⟨ha.asked name, ?_⟩
  rintro init hmem rfl hgeneration
  exact ha.carried init hmem (asksFor_iff.2 ⟨rfl, hgeneration⟩)

end HubControl

end HubFederation
