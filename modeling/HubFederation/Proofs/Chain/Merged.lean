import HubFederation.Proofs.Chain.Blocks
import Mathlib.Data.List.Nodup

/-!
# The merged chains of a tunnel

* `merge_carries_blocks`: along a way without repeats, merging leaves one chain for each
  block of the way and nothing else. Every hop is in exactly one of them, one of them
  starts at the origin, one listens on the bind port, and two that follow each other meet
  at the socket on the hub between them.
-/
namespace HubFederation

/-- A stack whose local end is the tunnel's socket on `hub`: its first hop leads there. -/
def OnSocket (t : Tunnel) (hub : String) (stack : List Endpoint) : Prop :=
  ∃ hop rest, stack = t.socket :: .ssh hop :: rest ∧ hop.targetHub = some hub

/-- What merged chains have to be to carry a tunnel over the joints of a way. -/
structure CarriesBlocks (t : Tunnel) (js : List Joint) (cs : Chains) : Prop where
  /-- In each block the joints that are pulled come first. -/
  pulled_first : ∀ b ∈ blocks js, b ≠ [] ∧ b = b.filter (·.pulled) ++ b.filter (!·.pulled)
  /-- There is one chain for each block, run where its joints turn, and no other chain. -/
  one_each : cs.entries.Perm ((t.carriers [t.origin] (blocks js)).map Tunnel.sole)
  /-- No hub runs the chains of two blocks. -/
  runners_nodup : ((t.carriers [t.origin] (blocks js)).map (·.1)).Nodup
  /-- Behind their local ends the chains hold every hop of the joints once. -/
  hops_perm : (cs.values.flatten.flatMap fun c => c.proxy.tail ++ c.bind.tail).Perm
    (js.flatMap (·.hops))
  one_origin : cs.values.flatten.countP (·.proxy.head? = some t.origin) = 1
  one_listener : cs.values.flatten.countP (·.bind.head? = some (.listen t.bindPort)) = 1
  /-- The chain of a block binds the socket on the hub behind its last joint, and the chain
  of the next block dials the socket there. -/
  meet : ∀ before b b' after, blocks js = before ++ b :: b' :: after →
    ∃ hub c c', b.getLast?.map (·.importing) = some hub ∧
      cs.get? (turn b) = some [c] ∧ OnSocket t hub c.bind ∧
      cs.get? (turn b') = some [c'] ∧ OnSocket t hub c'.proxy

/-! ## Blocks again -/

/-- Behind a joint of a block that is not pulled none is. -/
theorem pushed_of_isChain {j : Joint} {b : List Joint}
    (h : (j :: b).IsChain fun j next => (j.pulled || !next.pulled) = true) (hj : ¬ j.pulled) :
    ∀ x ∈ b, ¬ x.pulled := by
  induction b generalizing j with
  | nil => simp
  | cons j' b ih =>
    rw [List.isChain_cons_cons] at h
    have hj' : ¬ j'.pulled := by simpa [hj] using h.1
    exact List.forall_mem_cons.2 ⟨hj', ih h.2 hj'⟩

theorem pulled_first_of_isChain {b : List Joint}
    (h : b.IsChain fun j next => (j.pulled || !next.pulled) = true) :
    b = b.filter (·.pulled) ++ b.filter (!·.pulled) := by
  induction b with
  | nil => rfl
  | cons j b ih =>
    by_cases hj : j.pulled
    · have ih' := ih (List.isChain_cons.1 h).2
      simpa [List.filter_cons, hj] using ih'
    · have hall := pushed_of_isChain h hj
      have hnone : b.filter (·.pulled) = [] := List.filter_eq_nil_iff.2 hall
      have hsome : b.filter (!·.pulled) = b := List.filter_eq_self.2 (by simpa using hall)
      simp [hj, hnone, hsome]

theorem pulled_first {js b : List Joint} (hb : b ∈ blocks js) :
    b ≠ [] ∧ b = b.filter (·.pulled) ++ b.filter (!·.pulled) :=
  ⟨List.ne_nil_of_mem_splitBy hb, pulled_first_of_isChain (List.isChain_of_mem_splitBy hb)⟩

theorem flatten_blocks (js : List Joint) : (blocks js).flatten = js := List.flatten_splitBy _ _

/-- The hops of a block are those that its chain dials and those that it binds through. -/
theorem hops_of_block (b : List Joint) :
    (pulledHops b ++ pushedHops b).Perm (b.flatMap (·.hops)) := by
  have hsplit : (b.filter (·.pulled) ++ b.filter (!·.pulled)).Perm b := List.filter_append_perm _ _
  refine List.Perm.trans ?_ (hsplit.flatMap_right _)
  rw [List.flatMap_append]
  exact (List.Perm.refl _).append ((List.reverse_perm _).flatMap_right _)

/-- A block ends with a joint that is not pulled where the next one starts with one that is. -/
theorem cut_between {js : List Joint} {before after : List (List Joint)} {b b' : List Joint}
    (h : blocks js = before ++ b :: b' :: after) :
    ∃ l j j' r, b = l ++ [j] ∧ b' = j' :: r ∧ ¬ j.pulled ∧ j'.pulled := by
  have hmem : ∀ x ∈ [b, b'], x ∈ blocks js := by
    intro x hx
    rw [h]
    rcases List.mem_cons.1 hx with rfl | hx
    · simp
    · rw [List.mem_singleton.1 hx]; simp
  have hcut := List.isChain_getLast_head_splitBy (fun j next : Joint => j.pulled || !next.pulled) js
  change (blocks js).IsChain _ at hcut
  rw [h, List.isChain_append, List.isChain_cons_cons] at hcut
  obtain ⟨-, ⟨⟨ha, hb, hr⟩, -⟩, -⟩ := hcut
  rw [Bool.or_eq_false_iff, Bool.not_eq_false'] at hr
  obtain ⟨j', r, rfl⟩ := List.exists_cons_of_ne_nil hb
  exact ⟨b.dropLast, b.getLast ha, j', r, (List.dropLast_append_getLast ha).symm, rfl,
    by simp [hr.1], hr.2⟩

theorem exporting_eq_of_joined {before : List Joint} {hub : String} {j j' : Joint}
    {after : List Joint} (h : Joined hub (before ++ j :: j' :: after)) :
    j'.exporting = j.importing := by
  induction before generalizing hub with
  | nil => exact h.2.1
  | cons x before ih => exact ih h.2

/-! ## The chains that merging leaves -/

section
variable {t : Tunnel} {js : List Joint} {hub : String}

/-- What the hubs of a way run after all passes. -/
theorem along_merge_passes (hj : Joined hub js) (hn : (hub :: js.map (·.importing)).Nodup)
    (hh : ∀ j ∈ js, j.hops ≠ []) (near : Endpoint) :
    Chains.along (Chains.foldImports (hub :: js.map (·.importing))
        (Chains.foldExports (hub :: js.map (·.importing))
          (Chains.fuseAll (Chains.ofList (t.linksOf near js))))) (hub :: js.map (·.importing)) =
      t.settled near none hub js := by
  have hfuse := t.along_fuseAll near hj hn
  rw [Chains.along_cons, List.cons.injEq, Prod.mk.injEq] at hfuse
  rw [Chains.along_foldImports _ hn, Chains.along_foldExports _ hn, hfuse.1.2, hfuse.2,
    Tunnel.handOver_runs t hh (fun h => absurd rfl h), Tunnel.gather_afterExports]

/-- The hubs that run something after merging are the busy ones of the way. -/
theorem get?_merge_linksOf (hj : Joined hub js) (hn : (hub :: js.map (·.importing)).Nodup)
    (hh : ∀ j ∈ js, j.hops ≠ []) (near : Endpoint) {x : String} {l : List Chain} :
    (Chains.merge (hub :: js.map (·.importing)) (Chains.ofList (t.linksOf near js))).get? x = some l ↔
      (x, l) ∈ Tunnel.busy (t.settled near none hub js) := by
  rw [Chains.get?_merge, ← along_merge_passes hj hn hh near, Tunnel.busy, List.mem_filter]
  generalize hcs : Chains.foldImports _ _ = cs
  have hoff : x ∉ hub :: js.map (·.importing) → cs.own x = [] := by
    intro hx
    rw [← hcs, Chains.own_foldImports_of_not_mem _ hx, Chains.own_foldExports_of_not_mem _ hx,
      Chains.own_fuseAll, Chains.own_ofList]
    exact congrArg Chains.fuse (t.chainsOf_linksOf_of_not_mem near hj hx)
  unfold Chains.along
  rw [List.mem_map]
  constructor
  · intro h
    obtain ⟨rfl, hne⟩ := h
    refine ⟨⟨x, ?_, rfl⟩, by simpa using hne⟩
    exact Decidable.byContradiction fun hx => hne (hoff hx)
  · intro h
    obtain ⟨⟨y, -, hy⟩, hne⟩ := h
    cases hy
    exact ⟨rfl, by simpa using hne⟩

/-- Merged chains are those of the blocks, one for each. -/
theorem entries_merge_perm {j : Joint} (hj : Joined hub (j :: js))
    (hn : (hub :: (j :: js).map (·.importing)).Nodup) (hh : ∀ x ∈ j :: js, x.hops ≠ [])
    (near : Endpoint) :
    (Chains.merge (hub :: (j :: js).map (·.importing))
        (Chains.ofList (t.linksOf near (j :: js)))).entries.Perm
      ((t.carriers [near] (blocks (j :: js))).map Tunnel.sole) ∧
    ((t.carriers [near] (blocks (j :: js))).map (·.1)).Nodup := by
  have hbusy : Tunnel.busy (t.settled near none hub (j :: js)) =
      (t.carriers [near] (blocks (j :: js))).map Tunnel.sole := Tunnel.busy_settled t near none hj
  -- the busy hubs are some of those on the way, in its order
  have hkeys : ((t.carriers [near] (blocks (j :: js))).map (·.1)).Nodup := by
    have hsub : List.Sublist (Tunnel.busy (t.settled near none hub (j :: js)))
        (t.settled near none hub (j :: js)) := List.filter_sublist
    have hmap := hsub.map Prod.fst
    rw [hbusy, List.map_map, ← along_merge_passes hj hn hh near, Chains.along, List.map_map] at hmap
    exact (List.Sublist.nodup hmap (by simpa [Function.comp_def] using hn))
  refine ⟨?_, hkeys⟩
  rw [List.perm_ext_iff_of_nodup (SortedMap.nodup_entries _)]
  · intro ⟨x, l⟩
    rw [SortedMap.mem_entries_iff, get?_merge_linksOf hj hn hh near, hbusy]
  · refine List.Nodup.of_map Prod.fst ?_
    rw [List.map_map]
    exact hkeys

end

/-! ## Local ends and hops -/

namespace Tunnel

theorem socket_ne_origin (t : Tunnel) : t.socket ≠ t.origin := by
  unfold socket origin; exact fun h => nomatch h

theorem socket_ne_listen (t : Tunnel) (port : Port) : t.socket ≠ .listen port := by
  unfold socket; exact fun h => nomatch h

/-- Only the first block dials the end that it is given; the others dial the socket. -/
theorem countP_origin_carriers (t : Tunnel) {near : Endpoint} (bs : List (List Joint)) :
    (t.carriers [near] bs).countP (fun e => e.2.proxy.head? = some t.origin) =
      if near = t.origin ∧ bs ≠ [] then 1 else 0 := by
  induction bs generalizing near with
  | nil => simp [carriers]
  | cons b bs ih =>
    rw [carriers, List.countP_cons, ih]
    by_cases h : near = t.origin <;> simp [h, t.socket_ne_origin]

/-- Only the last block listens on the bind port; the others bind the socket. -/
theorem countP_listen_carriers (t : Tunnel) (near : List Endpoint) (bs : List (List Joint)) :
    (t.carriers near bs).countP (fun e => e.2.bind.head? = some (.listen t.bindPort)) =
      if bs = [] then 0 else 1 := by
  induction bs generalizing near with
  | nil => simp [carriers]
  | cons b bs ih =>
    rw [carriers, List.countP_cons, ih]
    cases bs with
    | nil => simp
    | cons b' bs => simp [t.socket_ne_listen]

theorem hops_carriers (t : Tunnel) (near : Endpoint) (bs : List (List Joint)) :
    ((t.carriers [near] bs).flatMap fun e => e.2.proxy.tail ++ e.2.bind.tail).Perm
      (bs.flatten.flatMap (·.hops)) := by
  induction bs generalizing near with
  | nil => exact List.Perm.refl _
  | cons b bs ih =>
    rw [carriers, List.flatMap_cons, List.flatten_cons, List.flatMap_append]
    exact (hops_of_block b).append (ih _)

/-- The chain of a block that is not the last one binds the socket. -/
theorem mem_carriers_of_before (t : Tunnel) (b b' : List Joint) (after : List (List Joint))
    (near : List Endpoint) (before : List (List Joint)) : ∃ proxy,
      (turn b, (⟨t.socket :: pushedHops b, proxy⟩ : Chain)) ∈
        t.carriers near (before ++ b :: b' :: after) := by
  induction before generalizing near with
  | nil => exact ⟨_, List.mem_cons_self ..⟩
  | cons x before ih =>
    obtain ⟨proxy, h⟩ := ih [t.socket]
    exact ⟨proxy, List.mem_cons_of_mem _ h⟩

/-- The chain of a block that is not the first one dials the socket. -/
theorem mem_carriers_of_after (t : Tunnel) (b : List Joint) (after : List (List Joint)) :
    ∀ (near : List Endpoint) {before : List (List Joint)}, before ≠ [] → ∃ bind,
      (turn b, (⟨bind, t.socket :: pulledHops b⟩ : Chain)) ∈ t.carriers near (before ++ b :: after)
  | _, [], h => absurd rfl h
  | _, [_], _ => ⟨_, List.mem_cons_of_mem _ (List.mem_cons_self ..)⟩
  | _, x :: y :: before, _ => by
    obtain ⟨bind, h⟩ := mem_carriers_of_after t b after [t.socket] (List.cons_ne_nil y before)
    exact ⟨bind, List.mem_cons_of_mem _ h⟩

end Tunnel

/-- The stack that a block binds leads to the hub behind its last joint. -/
theorem onSocket_pushedHops (t : Tunnel) {l : List Joint} {j : Joint} (hj : ¬ j.pulled)
    (hd : j.Dials) : OnSocket t j.importing (t.socket :: pushedHops (l ++ [j])) := by
  obtain ⟨hop, rest, hh, ht⟩ := hd
  refine ⟨hop, rest ++ pushedHops l, ?_, by simpa [Joint.dialed, hj] using ht⟩
  simp [pushedHops, List.filter_append, hj, hh]

/-- The stack that a block dials leads to the hub before its first joint. -/
theorem onSocket_pulledHops (t : Tunnel) {r : List Joint} {j : Joint} (hj : j.pulled)
    (hd : j.Dials) : OnSocket t j.exporting (t.socket :: pulledHops (j :: r)) := by
  obtain ⟨hop, rest, hh, ht⟩ := hd
  refine ⟨hop, rest ++ pulledHops r, ?_, by simpa [Joint.dialed, hj] using ht⟩
  simp [pulledHops, hj, hh]

/-- The chains of two blocks that follow each other meet at the socket, on the hub between
them. -/
theorem carriers_meet (t : Tunnel) {js : List Joint} {hub : String} (near : Endpoint)
    (hj : Joined hub js) (hd : ∀ j ∈ js, j.Dials) {before after : List (List Joint)}
    {b b' : List Joint} (h : blocks js = before ++ b :: b' :: after) :
    ∃ hub c c', b.getLast?.map (·.importing) = some hub ∧
      (turn b, c) ∈ t.carriers [near] (blocks js) ∧ OnSocket t hub c.bind ∧
      (turn b', c') ∈ t.carriers [near] (blocks js) ∧ OnSocket t hub c'.proxy := by
  obtain ⟨l, x, x', r, rfl, rfl, hx, hx'⟩ := cut_between h
  have hjs : js = (before.flatten ++ l) ++ x :: x' :: (r ++ after.flatten) := by
    rw [← flatten_blocks js, h]; simp
  have hmem : ∀ y ∈ [x, x'], y.Dials := by
    intro y hy
    refine hd y ?_
    rw [hjs]
    exact List.mem_append_right _ (List.mem_append_left (r ++ after.flatten) hy)
  have hnext : x'.exporting = x.importing := exporting_eq_of_joined (hjs ▸ hj)
  obtain ⟨proxy, hc⟩ := t.mem_carriers_of_before (l ++ [x]) (x' :: r) after [near] before
  have hne : before ++ [l ++ [x]] ≠ [] := by simp
  obtain ⟨bind, hc'⟩ := t.mem_carriers_of_after (x' :: r) after [near] hne
  rw [← h] at hc
  rw [List.append_assoc, List.singleton_append, ← h] at hc'
  refine ⟨x.importing, _, _, by simp, hc, ?_, hc', ?_⟩
  · exact onSocket_pushedHops t hx (hmem x (by simp))
  · rw [← hnext]
    exact onSocket_pulledHops t hx' (hmem x' (by simp))

/-- What holds of chains that are listed block by block. -/
theorem carriesBlocks_of_perm {t : Tunnel} {js : List Joint} {hub : String} {cs : Chains}
    (hne : js ≠ []) (hj : Joined hub js) (hd : ∀ j ∈ js, j.Dials)
    (hperm : cs.entries.Perm ((t.carriers [t.origin] (blocks js)).map Tunnel.sole))
    (hkeys : ((t.carriers [t.origin] (blocks js)).map (·.1)).Nodup) : CarriesBlocks t js cs := by
  have hblocks : blocks js ≠ [] := by
    obtain ⟨j, js, rfl⟩ := List.exists_cons_of_ne_nil hne
    exact blocks_ne_nil j js
  have hvalues : cs.values.flatten.Perm ((t.carriers [t.origin] (blocks js)).map (·.2)) := by
    have := (hperm.map (·.2)).flatten
    rwa [List.map_map, ← List.flatMap_def (f := Prod.snd ∘ Tunnel.sole),
      show (t.carriers [t.origin] (blocks js)).flatMap (Prod.snd ∘ Tunnel.sole) = _ from
        (List.map_eq_flatMap (f := Prod.snd) ..).symm] at this
  have hget : ∀ {x : String} {c : Chain}, (x, c) ∈ t.carriers [t.origin] (blocks js) →
      cs.get? x = some [c] := fun hc =>
    SortedMap.mem_entries_iff.1 (hperm.mem_iff.2 (List.mem_map.2 ⟨_, hc, rfl⟩))
  refine ⟨fun b hb => pulled_first hb, hperm, hkeys, ?_, ?_, ?_, ?_⟩
  · refine (hvalues.flatMap_right _).trans ?_
    have := t.hops_carriers t.origin (blocks js)
    rwa [List.flatMap_map, flatten_blocks] at *
  · rw [hvalues.countP_eq, List.countP_map]
    exact (t.countP_origin_carriers _).trans (by simp [hblocks])
  · rw [hvalues.countP_eq, List.countP_map]
    exact (t.countP_listen_carriers _ _).trans (by simp [hblocks])
  · intro before b b' after h
    obtain ⟨hub, c, c', hlast, hc, hs, hc', hs'⟩ := carriers_meet t t.origin hj hd h
    exact ⟨hub, c, c', hlast, hget hc, hs, hget hc', hs'⟩

/-- Merging the chains along a way without repeats leaves one chain for each block. -/
theorem merge_carries_blocks {t : Tunnel} {gateway : Gateways} {way : List String} {cs : Chains}
    (nodup : way.Nodup) (h : t.chains gateway way = .ok cs) :
    ∃ js, joints gateway way = .ok js ∧ cs = .ofList (t.linksOf t.origin js) ∧
      CarriesBlocks t js (cs.merge way) := by
  unfold Tunnel.chains at h
  split at h
  · cases h
  next hlen =>
  obtain ⟨hub, rest, rfl⟩ : ∃ hub rest, way = hub :: rest :=
    List.exists_cons_of_ne_nil fun he => hlen (by simp [he])
  obtain ⟨ls, hl, rfl⟩ := map_eq_ok.1 h
  obtain ⟨js, hjs, rfl⟩ := Tunnel.links_eq_linksOf hl
  obtain ⟨hj, rfl, hd⟩ := joints_along hjs
  refine ⟨js, hjs, rfl, ?_⟩
  cases js with
  | nil => simp at hlen
  | cons j js =>
    obtain ⟨hperm, hkeys⟩ := entries_merge_perm (t := t) hj nodup
      (fun x hx => (hd x hx).hops_ne_nil) t.origin
    exact carriesBlocks_of_perm (List.cons_ne_nil _ _) hj hd hperm hkeys

/-- Five hubs of which the second and the fourth can be dialed: the joints are pushed,
pulled, pushed and pulled, so there are three blocks. -/
theorem merge_carries_blocks_of_two_dialed_repeaters :
    let t : Tunnel := ⟨"web", ⟨"shop", "front"⟩, 80, 40000, "/key"⟩
    let gateway : Gateways := fun hub _ =>
      if hub = "b" ∨ hub = "d" then { Gateway.unknown with reachable := true, address := hub ++ ":22" }
      else .unknown
    let way := ["a", "b", "c", "d", "e"]
    ∃ cs, way.Nodup ∧ t.chains gateway way = .ok cs ∧
      ∃ js, joints gateway way = .ok js ∧ cs = .ofList (t.linksOf t.origin js) ∧
        CarriesBlocks t js (cs.merge way) :=
  ⟨_, by decide, rfl, merge_carries_blocks (by decide) rfl⟩

end HubFederation
