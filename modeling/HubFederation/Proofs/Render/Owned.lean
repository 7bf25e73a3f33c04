import HubFederation.Mapping.Sync
import HubFederation.Proofs.Render.Names

/-!
# What a controller renders

Everything that a controller renders carries the labels of its pair, holds nothing but a
name, labels and data, and is named for a route of the controller or for a peer.

* `selects_pair_iff`: labels that name a pair name no other one.
* `all_renderedFor`: what comes of rendering the routes of a controller.
-/
namespace HubFederation

/-! ## Labels of a pair -/

namespace Labels

theorem selects_pair_iff {exporting importing : String} {l : Labels} :
    (pair exporting importing).selects l ↔ l.get? exportedFrom = some exporting ∧
      l.get? importedTo = some importing ∧ l.get? managedBy = some controllerName := by
  have hget (k : String) : (pair exporting importing).get? k =
      if k = managedBy then some controllerName
      else if k = importedTo then some importing
      else if k = exportedFrom then some exporting else none := by
    unfold pair
    by_cases hm : k = managedBy
    · subst hm; simp
    by_cases hi : k = importedTo
    · subst hi; rw [SortedMap.get?_insert_of_ne _ _ hm]; simp [hm]
    by_cases he : k = exportedFrom
    · subst he
      rw [SortedMap.get?_insert_of_ne _ _ hm, SortedMap.get?_insert_of_ne _ _ hi]
      simp [hm, hi]
    · rw [SortedMap.get?_insert_of_ne _ _ hm, SortedMap.get?_insert_of_ne _ _ hi,
        SortedMap.get?_insert_of_ne _ _ he]
      simp [hm, hi, he, empty]
  rw [selects_iff]
  constructor
  · intro h
    refine ⟨h _ _ ?_, h _ _ ?_, h _ _ ?_⟩ <;> rw [hget] <;> rfl
  · intro ⟨he, hi, hm⟩ k v hk
    rw [hget] at hk
    split at hk
    next h => rw [h, hm, hk]
    · split at hk
      next h => rw [h, hi, hk]
      · split at hk
        next h => rw [h, he, hk]
        · cases hk

/-- Labels name one pair at most. -/
theorem pair_eq_of_selects {p q : String × String} {l : Labels} (hp : (pair p.1 p.2).selects l)
    (hq : (pair q.1 q.2).selects l) : p = q := by
  obtain ⟨he, hi, -⟩ := selects_pair_iff.1 hp
  obtain ⟨he', hi', -⟩ := selects_pair_iff.1 hq
  exact Prod.ext (Option.some.inj (he.symm.trans he')) (Option.some.inj (hi.symm.trans hi'))

/-- A label that names neither hub nor the manager does not matter to a pair. -/
theorem selects_pair_insert {exporting importing k v : String} {l : Labels}
    (h : (pair exporting importing).selects l) (he : exportedFrom ≠ k) (hi : importedTo ≠ k)
    (hm : managedBy ≠ k) : (pair exporting importing).selects (l.insert k v) := by
  rw [selects_pair_iff] at h ⊢
  rw [SortedMap.get?_insert_of_ne _ _ he, SortedMap.get?_insert_of_ne _ _ hi,
    SortedMap.get?_insert_of_ne _ _ hm]
  exact h

theorem selects_withConfig (exporting importing : String) (kind : ConfigKind) :
    (pair exporting importing).selects ((pair exporting importing).withConfig kind) :=
  selects_pair_insert (selects_iff.2 fun _ _ h => h) (by decide) (by decide) (by decide)

end Labels

/-! ## Resources of one kind -/

namespace Resources

def All (P : ConfigMap → Prop) (r : Resources) : Prop :=
  ∀ hub name cm, r.get? hub name = some cm → P cm

variable {P : ConfigMap → Prop} {r s : Resources}

theorem all_empty : All P ∅ := fun _ _ _ h => by cases h

theorem All.insert (h : r.All P) {hub : String} {cm : ConfigMap} (hc : P cm) :
    (r.insert hub cm).All P := by
  intro hub' name cm' hget
  rw [get?_insert] at hget
  split at hget
  · cases hget; exact hc
  · exact h hub' name cm' hget

theorem all_inserts (es : List (String × ConfigMap)) {r : Resources} (h : r.All P)
    (he : ∀ e ∈ es, P e.2) : (es.foldl (fun r e => r.insert e.1 e.2) r).All P := by
  induction es generalizing r with
  | nil => exact h
  | cons e es ih =>
    exact ih (h.insert (he e (List.mem_cons_self ..))) fun e' h' => he e' (List.mem_cons_of_mem _ h')

theorem All.merge (hr : r.All P) (hs : s.All P) : (r.merge s).All P :=
  all_inserts s.toList hr fun _ he => hs _ _ _ (mem_toList.1 he)

theorem All.mono {Q : ConfigMap → Prop} (h : r.All P) (hPQ : ∀ cm, P cm → Q cm) : r.All Q :=
  fun hub name cm hget => hPQ cm (h hub name cm hget)

end Resources

/-! ## Rendered ConfigMaps -/

/-- A ConfigMap that is called for what it is for: a route with one of `names`, or the key of
a peer. -/
def NamedFor (names : String → Prop) (cm : ConfigMap) : Prop :=
  ∃ p : Purpose, cm.metadata.name = some p.name ∧ ∀ route, p.route? = some route → names route

theorem ConfigMap.key_of_name {cm : ConfigMap} {name : String} (h : cm.metadata.name = some name) :
    cm.key = name ∧ cm.normalize.key = name := by
  unfold ConfigMap.key Metadata.anyName ConfigMap.normalize ConfigMap.plain
  simp [h]

/-- A ConfigMap that is rendered for a pair and for routes with one of `names`. -/
structure RenderedFor (pair : String × String) (names : String → Prop) (cm : ConfigMap) :
    Prop where
  plain : cm.normalize = cm
  labeled : (Labels.pair pair.1 pair.2).selects cm.labelSet
  named : NamedFor names cm

namespace Render

variable {exporting importing : String} {t : Tunnel}

theorem renderedFor_service (exporting importing route : String) (spec : RouteSpec)
    (ports : List TunnelPort) : RenderedFor (exporting, importing) (· = route)
      (service (.pair exporting importing) route spec ports) where
  plain := rfl
  labeled := by
    refine Labels.selects_pair_insert (Labels.selects_pair_insert (Labels.selects_pair_insert
      (Labels.selects_withConfig ..) ?_ ?_ ?_) ?_ ?_ ?_) ?_ ?_ ?_ <;> decide
  named := ⟨.service route, rfl, fun _ h => (Option.some.inj h).symm⟩

/-- All that a hub needs for a tunnel, by what it is for. -/
inductive Needs (owner : Labels) (t : Tunnel) (authorized : String → Option String) (b : Bound) :
    Purpose → ConfigMap → Prop
  | rules : b.outbound.isEmpty = false →
      Needs owner t authorized b (.rules t.route t.exportPort t.bindPort)
        (Render.rules owner t b.outbound)
  | allows : b.inbound.isEmpty = false →
      Needs owner t authorized b (.allows t.route t.exportPort t.bindPort)
        (Render.allows owner t b.inbound)
  | key {peer key : String} : peer ∈ b.inbound.keys → authorized peer = some key →
      Needs owner t authorized b (.key peer) (authorizedKey owner peer key)

theorem mem_hubConfigMaps_iff {owner : Labels} {authorized : String → Option String} {b : Bound}
    {cm : ConfigMap} :
    cm ∈ hubConfigMaps owner t authorized b ↔ ∃ x, Needs owner t authorized b x cm := by
  unfold hubConfigMaps
  rw [List.mem_append]
  constructor
  · rintro (h | h)
    · split at h
      · cases h
      next hout =>
        cases List.mem_singleton.1 h
        exact ⟨_, .rules (Bool.eq_false_iff.2 hout)⟩
    · split at h
      · cases h
      next hin =>
        rcases List.mem_cons.1 h with rfl | h
        · exact ⟨_, .allows (Bool.eq_false_iff.2 hin)⟩
        · obtain ⟨peer, hpeer, h⟩ := List.mem_filterMap.1 h
          obtain ⟨key, hkey, rfl⟩ := Option.map_eq_some_iff.1 h
          exact ⟨_, .key hpeer hkey⟩
  · rintro ⟨x, hx⟩
    cases hx with
    | rules hout => exact .inl (by simp [hout])
    | allows hin => exact .inr (by simp [hin])
    | @key peer key hpeer hkey =>
      obtain ⟨grants, hgrants⟩ := Option.isSome_iff_exists.1 (SortedMap.mem_keys_iff.1 hpeer)
      have hin : b.inbound.isEmpty = false := SortedMap.isEmpty_eq_false_iff.2 ⟨_, _, hgrants⟩
      refine .inr ?_
      rw [if_neg (by simp [hin])]
      exact List.mem_cons_of_mem _ (List.mem_filterMap.2 ⟨peer, hpeer, by rw [hkey]; rfl⟩)

theorem renderedFor_hubConfigMaps (authorized : String → Option String) (b : Bound) :
    ∀ cm ∈ hubConfigMaps (.pair exporting importing) t authorized b,
      RenderedFor (exporting, importing) (· = t.route) cm := by
  intro cm h
  obtain ⟨x, hx⟩ := mem_hubConfigMaps_iff.1 h
  cases hx with
  | rules =>
    exact ⟨rfl, Labels.selects_withConfig .., .rules t.route t.exportPort t.bindPort, rfl,
      fun _ h => (Option.some.inj h).symm⟩
  | allows =>
    exact ⟨rfl, Labels.selects_withConfig .., .allows t.route t.exportPort t.bindPort, rfl,
      fun _ h => (Option.some.inj h).symm⟩
  | @key peer => exact ⟨rfl, Labels.selects_withConfig .., .key peer, rfl, fun _ h => nomatch h⟩

/-- What every hub of a tunnel needs, with the hub. -/
def boundsConfigMaps (owner : Labels) (t : Tunnel) (authorized : String → Option String)
    (bounds : Bounds) : List (String × ConfigMap) :=
  bounds.entries.flatMap fun e => (hubConfigMaps owner t authorized e.2).map (e.1, ·)

/-- The ConfigMaps of a tunnel are entered one by one. -/
theorem addBounds_eq (owner : Labels) (t : Tunnel) (authorized : String → Option String)
    (bounds : Bounds) (r : Resources) : addBounds owner t authorized bounds r =
      (boundsConfigMaps owner t authorized bounds).foldl (fun r e => r.insert e.1 e.2) r := by
  unfold addBounds boundsConfigMaps
  simp only [List.foldl_flatMap, List.foldl_map]

theorem all_addBounds {P : ConfigMap → Prop} {owner : Labels} {authorized : String → Option String}
    (hP : ∀ b, ∀ cm ∈ hubConfigMaps owner t authorized b, P cm) (bounds : Bounds) {r : Resources}
    (h : r.All P) : (addBounds owner t authorized bounds r).All P := by
  rw [addBounds_eq]
  refine Resources.all_inserts _ h fun e he => ?_
  obtain ⟨⟨hub, b⟩, -, he⟩ := List.mem_flatMap.1 he
  obtain ⟨cm, hcm, rfl⟩ := List.mem_map.1 he
  exact hP b cm hcm

end Render

namespace Mapping

theorem all_renderPorts (m : Mapping) (way : List String) (route : Route) (P : ConfigMap → Prop)
    (hP : ∀ port bind authorized b, ∀ cm ∈ Render.hubConfigMaps m.labels (m.tunnel route port bind)
      authorized b, P cm)
    {ports : List (String × Port)} {w w' : World} {done done' : Resources × List TunnelPort}
    (h : m.renderPorts way route w done ports = (w', .ok done')) (hd : done.1.All P) :
    done'.1.All P := by
  induction ports generalizing w done with
  | nil => cases h; exact hd
  | cons p rest ih =>
    obtain ⟨w₁, bind, bounds, -, -, hrest⟩ := renderPorts_cons_eq_ok h
    exact ih hrest (Render.all_addBounds (hP p.2 bind w₁.fleet.key?) bounds hd)

theorem all_renderRoute (m : Mapping) (way : List String) {route : Route} {w w' : World}
    {r : Resources} (h : m.renderRoute way route w = (w', .ok r)) :
    r.All (RenderedFor m.pair (· = route.name)) := by
  obtain ⟨service, tunnels, ports, -, hports, rfl⟩ := renderRoute_eq_ok h
  have htunnels := all_renderPorts m way route (RenderedFor m.pair (· = route.name))
    (fun _ _ authorized b => Render.renderedFor_hubConfigMaps authorized b) hports
    Resources.all_empty
  split
  · exact htunnels
  · exact htunnels.insert (Render.renderedFor_service ..)

theorem all_renderFold (m : Mapping) (way : List String) (base : Report) {P : ConfigMap → Prop}
    (es : List (RouteId × Route)) {s : Rendering}
    (he : ∀ e ∈ es, ∀ cm, RenderedFor m.pair (· = e.2.name) cm → P cm) (h : s.resources.All P) :
    (es.foldl (m.renderOne way base) s).resources.All P := by
  induction es generalizing s with
  | nil => exact h
  | cons e es ih =>
    refine ih (fun e' h' => he e' (List.mem_cons_of_mem _ h')) ?_
    unfold renderOne
    split
    next hr =>
      exact h.merge ((all_renderRoute m way hr).mono (he e (List.mem_cons_self ..)))
    · exact h

/-- What a controller renders is rendered for its pair and its routes. -/
theorem all_renderedFor (m : Mapping) (way : List String) (base : Report) (w : World)
    (names : String → Prop) (hn : ∀ route ∈ m.routes, names route.name) :
    (m.renderAll way base w).resources.All (RenderedFor m.pair names) := by
  refine all_renderFold m way base m.knownRoutes (fun e he cm h => ?_) Resources.all_empty
  obtain ⟨route, hroute, hid⟩ := List.mem_filterMap.1 he
  obtain ⟨id, -, rfl⟩ := Option.map_eq_some_iff.1 hid
  obtain ⟨p, hp, hnames⟩ := h.named
  exact ⟨h.plain, h.labeled, p, hp, fun r hr => hnames r hr ▸ hn route hroute⟩

end Mapping

end HubFederation
