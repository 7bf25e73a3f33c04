import HubFederation.Proofs.Render.Owned
import Mathlib.Data.List.Pairwise

/-!
# Rendering many things for one pair

The ConfigMaps of all tunnels and services of a pair end up in one place. Tunnels that differ in
their route or in a port, and services of different routes, do not get in the way of each other:
what is there in the end is what each of them is on its own, in whatever order they come. All that
two tunnels may share is the key of a peer, which is the same for both.

* `Made.key_eq_iff`: ConfigMaps have one name only if they are for the same purpose.
* `Gives.unique`: what two pieces have for the same purpose on one hub is the same.
* `render_together`: rendering together loses nothing and adds nothing.
-/
namespace HubFederation

namespace Resources

/-- No two ConfigMaps compete for one name on one hub. -/
def Compatible (es : List (String × ConfigMap)) : Prop :=
  ∀ e ∈ es, ∀ e' ∈ es, e.1 = e'.1 → e.2.key = e'.2.key → e.2 = e'.2

/-- Where no two compete, everything that is entered is found. -/
theorem get?_foldl_insert_iff {es : List (String × ConfigMap)} (h : Compatible es)
    {hub name : String} {cm : ConfigMap} :
    (es.foldl (fun r e => r.insert e.1 e.2) (∅ : Resources)).get? hub name = some cm ↔
      (hub, cm) ∈ es ∧ cm.key = name := by
  rcases get?_foldl_insert es ∅ hub name with ⟨hget, hnone⟩ | ⟨e, he, hhub, hname, hget⟩
  · rw [hget]
    refine iff_of_false (fun hsome => nomatch hsome) ?_
    rintro ⟨hmem, hkey⟩
    exact hnone _ hmem ⟨rfl, hkey⟩
  · rw [hget]
    constructor
    · rintro hsome
      cases hsome
      exact ⟨hhub ▸ he, hname⟩
    · rintro ⟨hmem, hkey⟩
      exact congrArg some (h e he _ hmem hhub (hname.trans hkey.symm))

/-- Where no two compete, the order in which they are entered makes no difference, nor how often. -/
theorem foldl_insert_congr {es es' : List (String × ConfigMap)} (h : Compatible es)
    (hmem : ∀ e, e ∈ es' ↔ e ∈ es) :
    es'.foldl (fun r e => r.insert e.1 e.2) (∅ : Resources) =
      es.foldl (fun r e => r.insert e.1 e.2) ∅ := by
  have h' : Compatible es' := fun e he e' he' => h e ((hmem e).1 he) e' ((hmem e').1 he')
  refine ext_get? fun hub name => Option.ext fun cm => ?_
  rw [get?_foldl_insert_iff h, get?_foldl_insert_iff h', hmem]

theorem foldl_merge_eq (rs : List Resources) (r : Resources) :
    rs.foldl .merge r = (rs.flatMap toList).foldl (fun r e => r.insert e.1 e.2) r := by
  rw [List.foldl_flatMap]
  rfl

end Resources

namespace Render

/-! ## Purposes -/

/-- What the rendering functions make for a purpose. -/
inductive Made : Purpose → ConfigMap → Prop
  | rules (owner : Labels) (t : Tunnel) (chains : List Chain) :
      Made (.rules t.route t.exportPort t.bindPort) (rules owner t chains)
  | allows (owner : Labels) (t : Tunnel) (inbound : SortedMap String AllowList) :
      Made (.allows t.route t.exportPort t.bindPort) (allows owner t inbound)
  | key (owner : Labels) (peer key : String) : Made (.key peer) (authorizedKey owner peer key)
  | service (owner : Labels) (route : String) (spec : RouteSpec) (ports : List TunnelPort) :
      Made (.service route) (service owner route spec ports)

theorem Made.key_eq {x : Purpose} {cm : ConfigMap} (h : Made x cm) : cm.key = x.name := by
  cases h <;> rfl

/-- Whatever routes and hubs are called, ConfigMaps have one name only if they are of one kind
and for the same route and ports, or for the same peer. -/
theorem Made.key_eq_iff {x y : Purpose} {cm cm' : ConfigMap} (h : Made x cm) (h' : Made y cm') :
    cm.key = cm'.key ↔ x = y := by
  rw [h.key_eq, h'.key_eq]
  exact ⟨Purpose.name_injective, congrArg Purpose.name⟩

/-! ## Pieces -/

/-- What all that is rendered for a pair has in common. -/
structure Setting where
  exporting : String
  importing : String
  /-- The key that a hub logs in with. -/
  authorized : String → Option String

/-- What is rendered in one go. -/
inductive Piece where
  /-- All that the hubs of a tunnel need. -/
  | tunnel (t : Tunnel) (bounds : Bounds)
  /-- The service that a route publishes. -/
  | service (route : String) (spec : RouteSpec) (ports : List TunnelPort)

/-- Two tunnels differ in their route or in a port, two services in their route. -/
def Piece.Distinct : Piece → Piece → Prop
  | tunnel t _, tunnel t' _ =>
    (t.route, t.exportPort, t.bindPort) ≠ (t'.route, t'.exportPort, t'.bindPort)
  | service route _ _, service route' _ _ => route ≠ route'
  | _, _ => True

instance : Std.Symm Piece.Distinct where
  symm p q h := by
    cases p <;> cases q
    case tunnel.tunnel => exact Ne.symm h
    case service.service => exact Ne.symm h
    all_goals trivial

/-- Where two tunnels need something for the same purpose, it is the same, provided that tunnels
with the same route and ports are one tunnel with the same bounds. -/
theorem Needs.unique {owner : Labels} {authorized : String → Option String} {t t' : Tunnel}
    {b b' : Bound} {x x' : Purpose} {cm cm' : ConfigMap} (h : Needs owner t authorized b x cm)
    (h' : Needs owner t' authorized b' x' cm') (hx : x = x')
    (hone : (t.route, t.exportPort, t.bindPort) = (t'.route, t'.exportPort, t'.bindPort) →
      t = t' ∧ b = b') : cm = cm' := by
  cases h with
  | rules =>
    cases h' with
    | rules =>
      injection hx with hroute hexport hbind
      obtain ⟨rfl, rfl⟩ := hone (by rw [hroute, hexport, hbind])
      rfl
    | allows => cases hx
    | key => cases hx
  | allows =>
    cases h' with
    | rules => cases hx
    | allows =>
      injection hx with hroute hexport hbind
      obtain ⟨rfl, rfl⟩ := hone (by rw [hroute, hexport, hbind])
      rfl
    | key => cases hx
  | key _ hkey =>
    cases h' with
    | rules => cases hx
    | allows => cases hx
    | key _ hkey' =>
      cases hx
      rw [Option.some.inj (hkey.symm.trans hkey')]

namespace Setting
variable (s : Setting)

def labels : Labels := .pair s.exporting s.importing

/-- Adds a piece to what is rendered already. -/
def render (r : Resources) : Piece → Resources
  | .tunnel t bounds => addBounds s.labels t s.authorized bounds r
  | .service route spec ports => r.insert s.importing (service s.labels route spec ports)

/-- A piece that is rendered on its own. -/
def alone (p : Piece) : Resources := s.render ∅ p

/-- Pieces that are rendered one after the other. -/
def together (ps : List Piece) : Resources := ps.foldl s.render ∅

/-- The ConfigMaps of a piece, with their hubs. -/
def configMaps : Piece → List (String × ConfigMap)
  | .tunnel t bounds => boundsConfigMaps s.labels t s.authorized bounds
  | .service route spec ports => [(s.importing, service s.labels route spec ports)]

/-- What a piece has on a hub, by what it is for. -/
inductive Gives : Piece → String → Purpose → ConfigMap → Prop
  | need {t : Tunnel} {bounds : Bounds} {hub : String} {b : Bound} {x : Purpose} {cm : ConfigMap} :
      bounds.get? hub = some b → Needs s.labels t s.authorized b x cm →
      Gives (.tunnel t bounds) hub x cm
  | service (route : String) (spec : RouteSpec) (ports : List TunnelPort) :
      Gives (.service route spec ports) s.importing (.service route)
        (service s.labels route spec ports)

variable {s}

theorem mem_configMaps_iff {p : Piece} {hub : String} {cm : ConfigMap} :
    (hub, cm) ∈ s.configMaps p ↔ ∃ x, s.Gives p hub x cm := by
  cases p with
  | tunnel t bounds =>
    unfold configMaps boundsConfigMaps
    rw [List.mem_flatMap]
    constructor
    · rintro ⟨⟨hub', b⟩, hbound, hmem⟩
      obtain ⟨cm', hneeds, hpair⟩ := List.mem_map.1 hmem
      cases hpair
      obtain ⟨x, hx⟩ := mem_hubConfigMaps_iff.1 hneeds
      exact ⟨x, .need (SortedMap.mem_entries_iff.1 hbound) hx⟩
    · rintro ⟨x, hx⟩
      cases hx with
      | @need _ _ _ b _ _ hbound hneeds =>
        exact ⟨(hub, b), SortedMap.mem_entries_iff.2 hbound,
          List.mem_map.2 ⟨cm, mem_hubConfigMaps_iff.2 ⟨x, hneeds⟩, rfl⟩⟩
  | service route spec ports =>
    constructor
    · intro hmem
      cases List.mem_singleton.1 hmem
      exact ⟨_, .service route spec ports⟩
    · rintro ⟨x, hx⟩
      cases hx
      exact List.mem_singleton_self _

theorem Gives.made {p : Piece} {hub : String} {x : Purpose} {cm : ConfigMap}
    (h : s.Gives p hub x cm) : Made x cm := by
  cases h with
  | need _ hneeds => cases hneeds <;> constructor
  | service => constructor

/-- What two pieces have for the same purpose on one hub is the same: the key of a peer, or they
are one piece. -/
theorem Gives.unique {p q : Piece} {hub : String} {x y : Purpose} {cm cm' : ConfigMap}
    (h : s.Gives p hub x cm) (h' : s.Gives q hub y cm') (hxy : x = y)
    (hpq : p = q ∨ p.Distinct q) : cm = cm' := by
  cases h with
  | @need t bounds _ b _ _ hbound hneeds =>
    cases h' with
    | @need t' bounds' _ b' _ _ hbound' hneeds' =>
      refine hneeds.unique hneeds' hxy fun hsame => ?_
      rcases hpq with he | hne
      · cases he
        exact ⟨rfl, Option.some.inj (hbound.symm.trans hbound')⟩
      · exact absurd hsame hne
    | service => cases hneeds <;> cases hxy
  | service route spec ports =>
    cases h' with
    | need _ hneeds => cases hneeds <;> cases hxy
    | service =>
      rcases hpq with he | hne
      · cases he
        rfl
      · cases hxy
        exact absurd rfl hne

/-! ## Many pieces -/

theorem render_eq (r : Resources) (p : Piece) :
    s.render r p = (s.configMaps p).foldl (fun r e => r.insert e.1 e.2) r := by
  cases p with
  | tunnel t bounds => exact addBounds_eq ..
  | service => rfl

theorem alone_eq (p : Piece) :
    s.alone p = (s.configMaps p).foldl (fun r e => r.insert e.1 e.2) ∅ := render_eq ∅ p

theorem together_eq (ps : List Piece) :
    s.together ps = (ps.flatMap s.configMaps).foldl (fun r e => r.insert e.1 e.2) ∅ := by
  unfold together
  rw [List.foldl_flatMap]
  congr 1
  funext r p
  exact render_eq r p

/-- Pieces that differ do not compete for names. -/
theorem compatible_configMaps {ps : List Piece} (h : ps.Pairwise Piece.Distinct) :
    Resources.Compatible (ps.flatMap s.configMaps) := by
  rintro ⟨hub, cm⟩ he ⟨hub', cm'⟩ he' hhub hkey
  obtain ⟨p, hp, hmem⟩ := List.mem_flatMap.1 he
  obtain ⟨q, hq, hmem'⟩ := List.mem_flatMap.1 he'
  obtain ⟨x, hx⟩ := mem_configMaps_iff.1 hmem
  obtain ⟨y, hy⟩ := mem_configMaps_iff.1 hmem'
  cases hhub
  refine hx.unique hy ((hx.made.key_eq_iff hy.made).1 hkey) ?_
  by_cases hpq : p = q
  · exact .inl hpq
  · exact .inr (h.forall hp hq hpq)

theorem get?_alone_iff {p : Piece} {hub name : String} {cm : ConfigMap} :
    (s.alone p).get? hub name = some cm ↔ (hub, cm) ∈ s.configMaps p ∧ cm.key = name := by
  have hone : Resources.Compatible ([p].flatMap s.configMaps) :=
    compatible_configMaps (List.pairwise_singleton ..)
  rw [List.flatMap_singleton] at hone
  rw [alone_eq, Resources.get?_foldl_insert_iff hone]

/-- What is rendered together is what the pieces are on their own. -/
theorem get?_together_iff {ps : List Piece} (h : ps.Pairwise Piece.Distinct) {hub name : String}
    {cm : ConfigMap} : (s.together ps).get? hub name = some cm ↔
      ∃ p ∈ ps, (s.alone p).get? hub name = some cm := by
  rw [together_eq, Resources.get?_foldl_insert_iff (compatible_configMaps h), List.mem_flatMap]
  simp only [get?_alone_iff, ← and_assoc, exists_and_right]

/-- The order of the pieces makes no difference. -/
theorem together_perm {ps qs : List Piece} (h : ps.Pairwise Piece.Distinct) (hperm : qs.Perm ps) :
    s.together qs = s.together ps := by
  rw [together_eq, together_eq]
  exact Resources.foldl_insert_congr (compatible_configMaps h) fun e =>
    (hperm.flatMap_right s.configMaps).mem_iff

/-- Pieces may as well be rendered on their own and merged. -/
theorem merge_alone {ps : List Piece} (h : ps.Pairwise Piece.Distinct) :
    (ps.map s.alone).foldl .merge ∅ = s.together ps := by
  rw [Resources.foldl_merge_eq, together_eq, List.flatMap_map]
  refine Resources.foldl_insert_congr (compatible_configMaps h) fun ⟨hub, cm⟩ => ?_
  simp only [List.mem_flatMap, Resources.mem_toList, get?_alone_iff, and_true]

theorem get?_together_of_gives {ps : List Piece} (h : ps.Pairwise Piece.Distinct) {p : Piece}
    (hp : p ∈ ps) {hub : String} {x : Purpose} {cm : ConfigMap} (hx : s.Gives p hub x cm) :
    (s.together ps).get? hub cm.key = some cm :=
  (get?_together_iff h).2 ⟨p, hp, get?_alone_iff.2 ⟨mem_configMaps_iff.2 ⟨x, hx⟩, rfl⟩⟩

end Setting

/-- Take tunnels of which no two have the same route and ports, and services of which no two are of
one route. They are rendered to the same in every order, and to the same whether they are rendered
one after the other or merged. What is there in the end is exactly what each of them is on its own:
so for every hub of a tunnel its chains and its grants, and the service of every route. And whatever
routes and hubs are called, two ConfigMaps have different names if they are of different kinds, or
for different routes, ports or peers. -/
theorem render_together (s : Setting) {ps : List Piece} (h : ps.Pairwise Piece.Distinct) :
    (∀ qs : List Piece, qs.Perm ps → s.together qs = s.together ps ∧
      (qs.map s.alone).foldl .merge ∅ = s.together ps) ∧
    (∀ hub name cm, (s.together ps).get? hub name = some cm ↔
      ∃ p ∈ ps, (s.alone p).get? hub name = some cm) ∧
    (∀ t bounds, .tunnel t bounds ∈ ps → ∀ hub b, bounds.get? hub = some b →
      (b.outbound.isEmpty = false →
        (s.together ps).get? hub (rules s.labels t b.outbound).key =
          some (rules s.labels t b.outbound)) ∧
      (b.inbound.isEmpty = false →
        (s.together ps).get? hub (allows s.labels t b.inbound).key =
          some (allows s.labels t b.inbound))) ∧
    (∀ route spec ports, .service route spec ports ∈ ps →
      (s.together ps).get? s.importing (service s.labels route spec ports).key =
        some (service s.labels route spec ports)) ∧
    ∀ x y cm cm', Made x cm → Made y cm' → (cm.key = cm'.key ↔ x = y) := by
  refine ⟨fun qs hperm => ?_, fun _ _ _ => Setting.get?_together_iff h, ?_, ?_,
    fun _ _ _ _ hx hy => hx.key_eq_iff hy⟩
  · have hqs : qs.Pairwise Piece.Distinct := (hperm.pairwise_iff fun hd => Std.Symm.symm _ _ hd).2 h
    have hsame := Setting.together_perm (s := s) h hperm
    exact ⟨hsame, (Setting.merge_alone hqs).trans hsame⟩
  · intro t bounds hmem hub b hbound
    exact ⟨fun hout => Setting.get?_together_of_gives h hmem (.need hbound (.rules hout)),
      fun hin => Setting.get?_together_of_gives h hmem (.need hbound (.allows hin))⟩
  · intro route spec ports hmem
    exact Setting.get?_together_of_gives h hmem (.service route spec ports)

/-! ## Names that look alike -/

/-- A pair one of whose hubs is called like a service. -/
def lookalike : Setting := ⟨"x-service", "b", fun hub => some ("key of " ++ hub)⟩

/-- What both hubs need of a tunnel. -/
def bothEnds : Bounds :=
  let granting (peer : String) : Bound := ⟨[⟨[], []⟩], SortedMap.insert ∅ peer ∅⟩
  (SortedMap.insert ∅ "b" (granting "x-service")).insert "x-service" (granting "b")

/-- A tunnel of one port. -/
def plainTunnel (route : String) (bind : Port) : Tunnel := ⟨route, ⟨"n", "s"⟩, 80, bind, "/key"⟩

def plainSpec : RouteSpec := ⟨⟨"x-service", ⟨"n", "s"⟩⟩, ⟨"b", ⟨"n", "s"⟩⟩⟩

/-- Tunnels and services of routes that are called like the ConfigMaps of each other. -/
def lookalikes : List Piece :=
  [.tunnel (plainTunnel "r" 1) bothEnds, .tunnel (plainTunnel "r" 80) bothEnds,
    .tunnel (plainTunnel "r-tunnel-80" 1) bothEnds, .service "r" plainSpec [],
    .service "r-service" plainSpec [], .service "x" plainSpec []]

/-- All of them are there, and in any order. -/
theorem render_together_lookalikes : lookalikes.Pairwise Piece.Distinct ∧
    lookalike.together lookalikes.reverse = lookalike.together lookalikes ∧
    (lookalike.together lookalikes).get? "b" "r-tunnel-80-80" =
      some (rules lookalike.labels (plainTunnel "r" 80) [⟨[], []⟩]) ∧
    (lookalike.together lookalikes).get? "b" "r-tunnel-80-tunnel-80-1" =
      some (rules lookalike.labels (plainTunnel "r-tunnel-80" 1) [⟨[], []⟩]) ∧
    (lookalike.together lookalikes).get? "b" "x-service" =
      some (service lookalike.labels "x" plainSpec []) := by
  have hdistinct : lookalikes.Pairwise Piece.Distinct := by
    simp [lookalikes, Piece.Distinct, plainTunnel]
  obtain ⟨horder, -, htunnel, hservice, -⟩ := render_together lookalike hdistinct
  have hbound : bothEnds.get? "b" = some ⟨[⟨[], []⟩], SortedMap.insert ∅ "x-service" ∅⟩ := by decide
  have hchains (route : String) (bind : Port) (name : String)
      (hmem : .tunnel (plainTunnel route bind) bothEnds ∈ lookalikes)
      (hname : (rules lookalike.labels (plainTunnel route bind) [⟨[], []⟩]).key = name) :
      (lookalike.together lookalikes).get? "b" name =
        some (rules lookalike.labels (plainTunnel route bind) [⟨[], []⟩]) := by
    rw [← hname]
    exact (htunnel _ _ hmem "b" _ hbound).1 rfl
  refine ⟨hdistinct, (horder _ (List.reverse_perm _)).1, ?_, ?_, ?_⟩
  · exact hchains "r" 80 _ (by simp [lookalikes]) (by decide +kernel)
  · exact hchains "r-tunnel-80" 1 _ (by simp [lookalikes]) (by decide +kernel)
  · exact hservice "x" plainSpec [] (by simp [lookalikes])

end Render

end HubFederation
