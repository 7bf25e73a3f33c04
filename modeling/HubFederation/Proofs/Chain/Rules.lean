import HubFederation.Proofs.Chain.Entrances
import HubFederation.Proofs.Chain.Merged
import HubFederation.Proofs.Chain.Symmetry
import HubFederation.Proofs.Chain.Written

/-!
# Rules that are read back

What a hub runs is published as JSON and read by the hub. Names, the login key and the service are
given from outside and come into the texts as they are, so they must not hold the separators that
are looked for around them. Then what is read is what was written unless an address along the way
has a separator or no port.

* `authorize_read_back_iff`: bounds are read back if and only if every endpoint is.
* `own_merge_of_chains`: along a way without repeats hubs run the chains of the blocks.
* `rules_read_back_iff`: every hub reads back what it runs if and only if every address that is
  dialed along the way can be read back.
-/
namespace HubFederation

/-! ## Local ends -/

namespace Tunnel

variable {t : Tunnel}

theorem canonical_socket (t : Tunnel) : t.socket.Canonical := by
  unfold socket Endpoint.Canonical
  simp only [String.toList_append, List.append_assoc]
  exact List.prefix_append ['/'] _

/-- A part without `x` that starts before an `x` ends before it. -/
theorem prefix_of_not_mem {α : Type} {x : α} {l a b : List α} (hl : x ∉ l)
    (h : l <+: a ++ x :: b) : l <+: a := by
  rcases List.prefix_or_prefix_of_prefix h (List.prefix_append a _) with h' | ⟨rest, rfl⟩
  · exact h'
  · cases rest with
    | nil => simp
    | cons y rest =>
      have hy := (List.cons_prefix_cons.1 ((List.prefix_append_right_inj a).1 h)).1
      subst hy
      exact absurd (List.mem_append_right a (List.mem_cons_self ..)) hl

/-- A part without `x` lies before an `x` or behind it. -/
theorem infix_of_not_mem {α : Type} {x : α} {l a b : List α} (hl : x ∉ l)
    (h : l <:+: a ++ x :: b) : l <:+: a ∨ l <:+: b := by
  induction a with
  | nil =>
    rcases List.infix_cons_iff.1 h with hfront | hinside
    · exact .inl (prefix_of_not_mem hl hfront).isInfix
    · exact .inr hinside
  | cons y a ih =>
    rcases List.infix_cons_iff.1 h with hfront | hinside
    · exact .inl (prefix_of_not_mem hl hfront).isInfix
    · exact (ih hinside).imp_left fun h => List.infix_cons_iff.2 (.inr h)

/-- A host has its dots between the parts that could hold the mark of a scheme. -/
theorem canonical_origin (hname : ¬ Endpoint.schemeMark <:+: t.service.name.toList)
    (hns : ¬ Endpoint.schemeMark <:+: t.service.ns.toList) : t.origin.Canonical := by
  have hhost : t.service.host.toList =
      t.service.name.toList ++ '.' :: (t.service.ns.toList ++ '.' :: ['s', 'v', 'c']) := by
    simp [ServiceRef.host]
  refine ⟨fun he => ?_, fun hmark => ?_⟩
  · have hnil := congrArg String.toList he
    rw [hhost] at hnil
    simp at hnil
  · rw [hhost] at hmark
    have hdot : '.' ∉ Endpoint.schemeMark := by decide
    rcases infix_of_not_mem hdot hmark with h | h
    · exact hname h
    · rcases infix_of_not_mem hdot h with h | h
      · exact hns h
      · revert h
        decide

/-- The local ends of the chains of blocks are read back if the end that they are given is. -/
theorem canonical_ends {near : Endpoint} (hnear : near.Canonical) {bs : List (List Joint)}
    {x : String × Chain} (h : x ∈ t.carriers [near] bs) :
    (∀ e ∈ x.2.bind.head?, e.Canonical) ∧ ∀ e ∈ x.2.proxy.head?, e.Canonical := by
  induction bs generalizing near with
  | nil => cases h
  | cons b bs ih =>
    rcases List.mem_cons.1 h with rfl | h
    · refine ⟨fun e he => ?_, fun e he => ?_⟩
      · cases bs with
        | nil =>
          cases he
          trivial
        | cons =>
          cases he
          exact t.canonical_socket
      · cases he
        exact hnear
    · exact ih t.canonical_socket h

end Tunnel

/-! ## What hubs run -/

/-- A stack behind whose local end a hub has logged in. -/
theorem Chain.canonical_authenticateStack_iff {runner identityFile : String} {stack : List Endpoint}
    (hlast : ∀ e ∈ stack.head?, e.Canonical) :
    (∀ e ∈ authenticateStack runner identityFile stack, e.Canonical) ↔
      ∀ e ∈ stack.tail, (e.enter runner identityFile).Canonical := by
  cases stack with
  | nil => simp [authenticateStack]
  | cons last hops =>
    rw [authenticateStack_cons, List.forall_mem_cons, List.forall_mem_map]
    exact and_iff_right (hlast last rfl)

theorem Chain.canonical_authenticate_iff {runner identityFile : String} {c : Chain}
    (hbind : ∀ e ∈ c.bind.head?, e.Canonical) (hproxy : ∀ e ∈ c.proxy.head?, e.Canonical) :
    (∀ e ∈ (c.authenticate runner identityFile).endpoints, e.Canonical) ↔
      ∀ e ∈ c.proxy.tail ++ c.bind.tail, (e.enter runner identityFile).Canonical := by
  unfold endpoints
  rw [List.forall_mem_append, List.forall_mem_append]
  exact (and_congr (canonical_authenticateStack_iff hbind)
    (canonical_authenticateStack_iff hproxy)).trans and_comm

/-- Hubs without a bound run nothing. -/
theorem Bounds.forall_outbound_iff {P : List Chain → Prop} (hnil : P []) (bs : Bounds) :
    (∀ hub b, bs.get? hub = some b → P b.outbound) ↔ ∀ hub, P (bs.outbound hub) := by
  constructor
  · intro h hub
    unfold outbound SortedMap.getD
    cases hb : bs.get? hub with
    | none => exact hnil
    | some b => exact h hub b hb
  · intro h hub b hb
    have hhub := h hub
    unfold outbound SortedMap.getD at hhub
    rwa [hb] at hhub

namespace Chains

theorem outbound_authorize (cs : Chains) (identityFile hub : String) :
    (cs.authorize identityFile).outbound hub =
      (cs.own hub).map (·.authenticate hub identityFile) := by
  rw [(reflects_authorize cs identityFile).runs, filter_runs, List.map_map]
  rfl

/-- Bounds are read back if and only if every endpoint is, once the hubs have logged in. -/
theorem authorize_read_back_iff (cs : Chains) (identityFile : String) :
    (∀ hub b, (cs.authorize identityFile).get? hub = some b →
      (Json.parse? (Chain.listToJson b.outbound).compact).bind Chain.listOfJson? =
        some b.outbound) ↔
      ∀ hub, ∀ c ∈ cs.own hub, ∀ e ∈ (c.authenticate hub identityFile).endpoints, e.Canonical := by
  have hnil : (Json.parse? (Chain.listToJson []).compact).bind Chain.listOfJson? = some [] :=
    Chain.parse?_listToJson_iff.2 fun _ hc => absurd hc List.not_mem_nil
  refine (Bounds.forall_outbound_iff (P := fun own =>
    (Json.parse? (Chain.listToJson own).compact).bind Chain.listOfJson? = some own) hnil _).trans ?_
  refine forall_congr' fun hub => ?_
  rw [Chain.parse?_listToJson_iff, outbound_authorize, List.forall_mem_map]

/-- Hubs that each run one chain. -/
theorem mem_own_of_perm {cs : Chains} {runs : List (String × Chain)}
    (h : cs.entries.Perm (runs.map Tunnel.sole)) {hub : String} {c : Chain} :
    c ∈ cs.own hub ↔ (hub, c) ∈ runs := by
  have hget (l : List Chain) : cs.get? hub = some l ↔ (hub, l) ∈ runs.map Tunnel.sole :=
    SortedMap.mem_entries_iff.symm.trans h.mem_iff
  unfold own
  constructor
  · intro hc
    cases hl : cs.get? hub with
    | none =>
      rw [hl] at hc
      cases hc
    | some l =>
      rw [hl] at hc
      obtain ⟨run, hrun, he⟩ := List.mem_map.1 ((hget l).1 hl)
      cases he
      rw [List.mem_singleton.1 hc]
      exact hrun
  · intro hc
    rw [(hget [c]).2 (List.mem_map.2 ⟨_, hc, rfl⟩)]
    exact List.mem_singleton_self c

end Chains

namespace Tunnel

variable {t : Tunnel}

/-- Merging leaves nothing to run to a hub that is not on the way. -/
theorem own_merge_of_not_mem {js : List Joint} {hub x : String} (near : Endpoint)
    (hj : Joined hub js) (hx : x ∉ hub :: js.map (·.importing)) :
    Chains.own (Chains.merge (hub :: js.map (·.importing)) (Chains.ofList (t.linksOf near js))) x =
      [] := by
  unfold Chains.own
  cases hget : SortedMap.get? (Chains.merge _ _) x with
  | none => rfl
  | some l =>
    obtain ⟨rfl, -⟩ := Chains.get?_merge.1 hget
    have hnone : Chains.own (Chains.ofList (t.linksOf near js)) x = [] := by
      rw [Chains.own_ofList]
      exact t.chainsOf_linksOf_of_not_mem near hj hx
    rw [Option.getD_some, Chains.own_foldImports_of_not_mem _ hx,
      Chains.own_foldExports_of_not_mem _ hx, Chains.own_fuseAll, hnone]
    rfl

/-- After merging, hubs of a way without repeats run the chains of its blocks, and others none. -/
theorem own_merge_of_chains {gateway : Gateways} {way : List String} {cs : Chains}
    (nodup : way.Nodup) (h : t.chains gateway way = .ok cs) : ∃ js, joints gateway way = .ok js ∧
      (∀ hub c, c ∈ (cs.merge way).own hub ↔ (hub, c) ∈ t.carriers [t.origin] (blocks js)) ∧
      ∀ hub ∉ way, (cs.merge way).own hub = [] := by
  unfold chains at h
  split at h
  · cases h
  next hlen =>
  obtain ⟨hub, rest, rfl⟩ : ∃ hub rest, way = hub :: rest :=
    List.exists_cons_of_ne_nil fun he => hlen (by simp [he])
  obtain ⟨ls, hl, rfl⟩ := map_eq_ok.1 h
  obtain ⟨js, hjs, rfl⟩ := links_eq_linksOf hl
  obtain ⟨hj, rfl, hd⟩ := joints_along hjs
  refine ⟨js, hjs, fun x c => ?_, fun x hx => own_merge_of_not_mem t.origin hj hx⟩
  cases js with
  | nil => simp at hlen
  | cons j js =>
    obtain ⟨hperm, -⟩ := entries_merge_perm (t := t) hj nodup
      (fun x hx => (hd x hx).hops_ne_nil) t.origin
    exact Chains.mem_own_of_perm hperm

/-- Along a way without repeats, if no hub that runs or is dialed has a question mark or an
ampersand in its name, the login key has no ampersand and the service has no mark of a scheme:
every hub reads back from JSON the chains that it runs if and only if the address of every entrance
along the way is without question marks and at signs and has a port behind its last colon. -/
theorem rules_read_back_iff {gateway : Gateways} {way : List String} {bs : Bounds}
    (nodup : way.Nodup) (h : t.bounds gateway way = .ok bs)
    (hhubs : ∀ hub ∈ way ++ (Entrance.along gateway way).map (·.hub),
      '?' ∉ hub.toList ∧ '&' ∉ hub.toList)
    (hfile : '&' ∉ t.identityFile.toList)
    (hname : ¬ Endpoint.schemeMark <:+: t.service.name.toList)
    (hns : ¬ Endpoint.schemeMark <:+: t.service.ns.toList) :
    (∀ hub b, bs.get? hub = some b →
      (Json.parse? (Chain.listToJson b.outbound).compact).bind Chain.listOfJson? =
        some b.outbound) ↔
      ∀ d ∈ Entrance.along gateway way, SshHop.Addressable d.address := by
  obtain ⟨cs, hcs, rfl⟩ := map_eq_ok.1 h
  obtain ⟨js, hjs, hown, hoff⟩ := own_merge_of_chains nodup hcs
  have hcovers := Entrance.covers_joints hjs
  have hhops := t.hops_carriers t.origin (blocks js)
  rw [flatten_blocks] at hhops
  -- Local ends are read back, so the hops behind them are what counts.
  have hends {hub : String} {c : Chain} (hc : (hub, c) ∈ t.carriers [t.origin] (blocks js)) :
      (∀ e ∈ (c.authenticate hub t.identityFile).endpoints, e.Canonical) ↔
        ∀ e ∈ c.proxy.tail ++ c.bind.tail, (e.enter hub t.identityFile).Canonical := by
    obtain ⟨hbind, hproxy⟩ := canonical_ends (canonical_origin hname hns) hc
    exact Chain.canonical_authenticate_iff hbind hproxy
  rw [Chains.authorize_read_back_iff]
  constructor
  · intro hread d hd
    obtain ⟨⟨hub, c⟩, hc, he⟩ := List.mem_flatMap.1 (hhops.mem_iff.2 (hcovers.all d hd))
    have hcanonical := (hends hc).1 (hread hub c ((hown hub c).2 hc)) _ he
    exact ⟨hcanonical.address, hcanonical.port⟩
  · intro haddress hub c hc
    have hway : hub ∈ way := by
      refine Decidable.byContradiction fun hnot => ?_
      rw [hoff hub hnot] at hc
      cases hc
    have hr := (hhubs hub (List.mem_append_left _ hway)).1
    have hrun := (hown hub c).1 hc
    refine (hends hrun).2 fun e he => ?_
    rcases hcovers.only e (hhops.mem_iff.1 (List.mem_flatMap.2 ⟨_, hrun, he⟩)) with
      hcanonical | ⟨d, hd, rfl⟩
    · exact Endpoint.canonical_enter hr hfile hcanonical
    · have hhub := hhubs d.hub (List.mem_append_right _ (List.mem_map.2 ⟨d, hd, rfl⟩))
      exact (Entrance.canonical_enter_iff hr hfile hhub.2).2 (haddress d hd)

/-- A hub that can be dialed only through another hub, a hop with a key of its own and a proxy. -/
def detour (address : String) : Gateways := fun hub _ =>
  if hub = "b" then
    { Gateway.unknown with
      reachable := true
      address := "b:22"
      receptionProxy := [.hub "d", .proxy "ssh://root@bastion:22?identity_file=/old",
        .proxy "http://squid:3128"] }
  else { Gateway.unknown with address }

/-- A port behind the last colon is enough, also of an address with several; without one the rules
of some hub are not read back. -/
theorem rules_read_back_iff_detour :
    let t : Tunnel := ⟨"web", ⟨"shop", "front"⟩, 80, 40000, "/key"⟩
    let way := ["a", "b", "c"]
    ∃ bs bs', t.bounds (detour "[::1]:+22") way = .ok bs ∧ t.bounds (detour "d") way = .ok bs' ∧
      (∀ hub b, bs.get? hub = some b →
        (Json.parse? (Chain.listToJson b.outbound).compact).bind Chain.listOfJson? =
          some b.outbound) ∧
      ¬ ∀ hub b, bs'.get? hub = some b →
        (Json.parse? (Chain.listToJson b.outbound).compact).bind Chain.listOfJson? =
          some b.outbound := by
  intro t way
  have hok (address : String) : ∃ bs, t.bounds (detour address) way = .ok bs := ⟨_, rfl⟩
  obtain ⟨bs, hbs⟩ := hok "[::1]:+22"
  obtain ⟨bs', hbs'⟩ := hok "d"
  have hread := rules_read_back_iff (by decide) hbs (by decide +kernel) (by decide) (by decide)
    (by decide)
  have hnot := rules_read_back_iff (by decide) hbs' (by decide +kernel) (by decide) (by decide)
    (by decide)
  refine ⟨bs, bs', hbs, hbs', hread.2 (by decide +kernel), fun h => ?_⟩
  have haddress := hnot.1 h
  revert haddress
  decide +kernel

end Tunnel

end HubFederation
