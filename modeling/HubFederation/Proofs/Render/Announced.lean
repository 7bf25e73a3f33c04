import HubFederation.Proofs.Mapping.Recall

/-!
# Two records of the same ports

The bind ports of a tunnel are on record twice: in the ConfigMap of its service, and in the Service
that is made of it, which has the labels of the ConfigMap and a port for each published one. There
a port is found by the end of its name. No end is mistaken for another, since a dash stands before
the number, and a number that is published twice has one bind port, so that it does not matter
which of its ports is found.

* `TunnelPort.Numbered.publishes_iff`: whose name ends in a number.
* `bindings_announced`: the ports of the Service give back the bindings that it announces.
* `ofService_eq_ofConfigMap`: both records are read as the same bindings.
* `ofService_renderPorts`: what a controller publishes can be read so, as the ports it has bound.
-/
namespace HubFederation

theorem Port.ofInt?_toNat (p : Port) : Port.ofInt? p.toNat = some p := by
  have hle := Port.toNat_le p
  unfold Port.ofInt?
  rw [if_pos (by omega), Int.toNat_natCast, UInt16.ofNat_toNat]

theorem Port.chars_injective {p q : Port} (h : p.chars = q.chars) : p = q :=
  Option.some.inj (by rw [← Port.ofChars?_chars p, h, Port.ofChars?_chars q])

/-- The name of a published port tells its number after the last dash. -/
def TunnelPort.Numbered (p : TunnelPort) : Prop := ∃ text, p.name = text ++ "-" ++ p.port.text

/-- A name that tells a number ends in a dash and that number only. -/
theorem TunnelPort.Numbered.publishes_iff {p : TunnelPort} (h : p.Numbered) (port : Port) :
    ('-' :: port.chars).isSuffixOf p.name.toList = true ↔ port = p.port := by
  obtain ⟨text, hname⟩ := h
  have hchars : p.name.toList = text.toList ++ '-' :: p.port.chars := by
    rw [hname]
    simp [Port.text]
  rw [hchars, List.isSuffixOf_iff_suffix]
  constructor
  · rintro ⟨front, hfront⟩
    have hdash (q : Port) : '-' ∉ q.chars := fun hmem => Port.ne_dash_of_mem_chars hmem rfl
    have hcut := Text.cutLast_append (hdash port) front
    rw [hfront, Text.cutLast_append (hdash p.port)] at hcut
    exact Port.chars_injective (Prod.mk.inj (Option.some.inj hcut)).2.symm
  · rintro rfl
    exact List.suffix_append ..

namespace Recovery

/-- A port of a Service that announces a published port. -/
structure Announces (sp : ServicePort) (p : TunnelPort) : Prop where
  name : sp.name = some p.name
  port : sp.port = p.port.toNat
  target : sp.target = some (.number p.targetPort.toNat)

/-- A Service with the labels of `cm` that announces `ports`, in this order. -/
structure MadeOf (s : Service) (cm : ConfigMap) (ports : List TunnelPort) : Prop where
  labels : s.metadata.labelSet = cm.labelSet
  ports : List.Forall₂ Announces s.ports ports

variable {ports : List TunnelPort} {announced : List ServicePort}

theorem publisher?_cons {sp : ServicePort} {p : TunnelPort} (ha : Announces sp p)
    (hp : p.Numbered) (announced : List ServicePort) (port : Port) :
    publisher? (sp :: announced) port =
      if port = p.port then some sp else publisher? announced port := by
  have hends := hp.publishes_iff port
  unfold publisher?
  rw [List.find?_cons]
  simp only [ha.name]
  by_cases hsame : port = p.port
  · rw [if_pos hsame, hends.2 hsame]
  · rw [if_neg hsame, Bool.eq_false_iff.2 fun h => hsame (hends.1 h)]

/-- A published port is found by its number, or another one that has the same number. -/
theorem publisher?_announced (ha : List.Forall₂ Announces announced ports)
    (hnumbered : ∀ p ∈ ports, p.Numbered) {p : TunnelPort} (hp : p ∈ ports) :
    ∃ sp, publisher? announced p.port = some sp ∧ ∃ q ∈ ports, q.port = p.port ∧ Announces sp q := by
  induction ha with
  | nil => cases hp
  | @cons sp first announced rest hfirst _ ih =>
    rw [publisher?_cons hfirst (hnumbered first (List.mem_cons_self ..))]
    by_cases hsame : p.port = first.port
    · exact ⟨sp, if_pos hsame, first, List.mem_cons_self .., hsame.symm, hfirst⟩
    · have hmem : p ∈ rest := (List.mem_cons.1 hp).resolve_left fun he => hsame (he ▸ rfl)
      obtain ⟨sp', hfound, q, hq, hport, hannounced⟩ :=
        ih (fun q hq => hnumbered q (List.mem_cons_of_mem _ hq)) hmem
      exact ⟨sp', (if_neg hsame).trans hfound, q, List.mem_cons_of_mem _ hq, hport, hannounced⟩

/-- The ports of a Service give back the bindings of the published ports that they announce. -/
theorem bindings_announced (ha : List.Forall₂ Announces announced ports)
    (hnumbered : ∀ p ∈ ports, p.Numbered)
    (htargets : ∀ p ∈ ports, ∀ q ∈ ports, p.port = q.port → p.targetPort = q.targetPort)
    (hub : String) (source : ServiceRef) {listed : List TunnelPort} (hl : listed ⊆ ports) :
    bindings hub source.ns source.name announced (listed.map (·.port)) =
      .ok (published hub source listed) := by
  induction listed with
  | nil => rfl
  | cons p listed ih =>
    obtain ⟨hp, hl⟩ := List.cons_subset.1 hl
    obtain ⟨sp, hfound, q, hq, hport, hannounced⟩ := publisher?_announced ha hnumbered hp
    have htarget : Port.ofInt? (targetNumber sp) = some p.targetPort := by
      unfold targetNumber
      rw [hannounced.target, htargets p hp q hq hport.symm]
      exact Port.ofInt?_toNat _
    rw [List.map_cons, bindings]
    simp only [hfound, htarget, ih hl]
    rfl

/-- The labels of a service ConfigMap name the exported service and its ports. -/
theorem labelSet_service (exporting importing route : String) (spec : RouteSpec)
    (ports : List TunnelPort) :
    let l := (Render.service (.pair exporting importing) route spec ports).labelSet
    l.get? Labels.exportedFrom = some exporting ∧
      l.get? Labels.exportedFromNamespace = some spec.source.service.ns ∧
      l.get? Labels.exportedFromName = some spec.source.service.name ∧
      l.get? Labels.exportedFromPorts = some (Port.listText (ports.map (·.port))) := by
  refine ⟨?_, ?_, ?_, SortedMap.get?_insert_self ..⟩
  · exact (Labels.selects_pair_iff.1
      (Render.renderedFor_service exporting importing route spec ports).labeled).1
  · refine (SortedMap.get?_insert_of_ne _ _ (by decide)).trans ?_
    refine (SortedMap.get?_insert_of_ne _ _ (by decide)).trans ?_
    exact SortedMap.get?_insert_self ..
  · refine (SortedMap.get?_insert_of_ne _ _ (by decide)).trans ?_
    exact SortedMap.get?_insert_self ..

theorem ofService_announced {exporting importing route : String} {spec : RouteSpec} {s : Service}
    (hs : MadeOf s (Render.service (.pair exporting importing) route spec ports) ports)
    (hnumbered : ∀ p ∈ ports, p.Numbered)
    (htargets : ∀ p ∈ ports, ∀ q ∈ ports, p.port = q.port → p.targetPort = q.targetPort) :
    ofService s = .ok (published exporting spec.source.service ports) := by
  obtain ⟨hhub, hns, hname, hports⟩ := labelSet_service exporting importing route spec ports
  unfold ofService
  simp only [hs.labels, hhub, hns, hname, hports, Port.listOfText_listText]
  exact bindings_announced hs.ports hnumbered htargets exporting _ (List.Subset.refl ports)

/-- The Service that is made of a service ConfigMap is read as the same bindings as the ConfigMap:
each published port of the exported service with its bind port, in order. -/
theorem ofService_eq_ofConfigMap (exporting importing route : String) (spec : RouteSpec)
    {ports : List TunnelPort} (hnumbered : ∀ p ∈ ports, p.Numbered)
    (htargets : ∀ p ∈ ports, ∀ q ∈ ports, p.port = q.port → p.targetPort = q.targetPort)
    {s : Service}
    (hs : MadeOf s (Render.service (.pair exporting importing) route spec ports) ports) :
    let cm := Render.service (.pair exporting importing) route spec ports
    ofService s = ofConfigMap cm.normalize ∧
      ofConfigMap cm.normalize = .ok (ports.map fun p =>
        (⟨exporting, spec.source.service.ns, spec.source.service.name, p.port⟩, p.targetPort)) := by
  have hrecorded := ofConfigMap_service exporting importing route spec ports
  exact ⟨(ofService_announced hs hnumbered htargets).trans hrecorded.symm, hrecorded⟩

/-- Ports of which one ends in the digits of another one, one has another number within its name,
and one is published twice. -/
def lookalikes : List TunnelPort :=
  [⟨"tcp-8080", "TCP", 8080, 40000⟩, ⟨"tcp-80", "TCP", 80, 40001⟩, ⟨"x-80-443", "X-80", 443, 80⟩,
    ⟨"udp-53", "UDP", 53, 40002⟩, ⟨"tcp-53", "TCP", 53, 40002⟩]

/-- The Service that is made of a ConfigMap for `ports`. -/
def announcement (cm : ConfigMap) (ports : List TunnelPort) : Service where
  metadata := { Metadata.empty with labels := cm.metadata.labels }
  ports := ports.map fun p =>
    ⟨some p.name, some p.protocol, p.port.toNat, some (.number p.targetPort.toNat)⟩

theorem madeOf_announcement (cm : ConfigMap) (ports : List TunnelPort) :
    MadeOf (announcement cm ports) cm ports where
  labels := rfl
  ports := List.forall₂_map_left_iff.2 (List.forall₂_same.2 fun _ _ => ⟨rfl, rfl, rfl⟩)

theorem ofService_eq_ofConfigMap_lookalikes :
    let spec : RouteSpec := ⟨⟨"east", ⟨"shop", "web"⟩⟩, ⟨"west", ⟨"shop", "web"⟩⟩⟩
    let cm := Render.service (.pair "east" "west") "web" spec lookalikes
    (∀ p ∈ lookalikes, p.Numbered) ∧
    (∀ p ∈ lookalikes, ∀ q ∈ lookalikes, p.port = q.port → p.targetPort = q.targetPort) ∧
    ofService (announcement cm lookalikes) = ofConfigMap cm.normalize ∧
      ofConfigMap cm.normalize = .ok [(⟨"east", "shop", "web", 8080⟩, 40000),
        (⟨"east", "shop", "web", 80⟩, 40001), (⟨"east", "shop", "web", 443⟩, 80),
        (⟨"east", "shop", "web", 53⟩, 40002), (⟨"east", "shop", "web", 53⟩, 40002)] := by
  have hnumbered : ∀ p ∈ lookalikes, p.Numbered := by
    simp only [lookalikes, List.forall_mem_cons]
    exact ⟨⟨"tcp", by decide +kernel⟩, ⟨"tcp", by decide +kernel⟩, ⟨"x-80", by decide +kernel⟩,
      ⟨"udp", by decide +kernel⟩, ⟨"tcp", by decide +kernel⟩, nofun⟩
  have htargets : ∀ p ∈ lookalikes, ∀ q ∈ lookalikes,
      p.port = q.port → p.targetPort = q.targetPort := by decide
  exact ⟨hnumbered, htargets, ofService_eq_ofConfigMap "east" "west" "web" _ hnumbered htargets
    (madeOf_announcement _ _)⟩

/-! ## Ports that a controller publishes -/

theorem numbered_renderPorts (m : Mapping) (way : List String) (route : Route)
    {ports : List (String × Port)} {w w' : World} {done done' : Resources × List TunnelPort}
    (h : m.renderPorts way route w done ports = (w', .ok done')) (hd : ∀ p ∈ done.2, p.Numbered) :
    ∀ p ∈ done'.2, p.Numbered := by
  induction ports generalizing w done with
  | nil =>
    cases h
    exact hd
  | cons p rest ih =>
    obtain ⟨w₁, bind, bounds, -, -, hrest⟩ := Mapping.renderPorts_cons_eq_ok h
    refine ih hrest fun t ht => ?_
    rcases List.mem_append.1 ht with ht | ht
    · exact hd t ht
    · cases List.mem_singleton.1 ht
      exact ⟨Text.lowercase p.1, rfl⟩

/-- The Service that is made of what a route publishes gives back the bind ports of the route. -/
theorem ofService_renderPorts {m : Mapping} {way : List String} {route : Route}
    {exported : List (String × Port)} {w w' : World} {done : Resources × List TunnelPort}
    (h : m.renderPorts way route w (∅, []) exported = (w', .ok done)) {s : Service}
    (hs : MadeOf s (Render.service m.labels route.name route.spec done.2) done.2) :
    ofService s = .ok (published m.exporting route.spec.source.service done.2) ∧
      ∀ b ∈ published m.exporting route.spec.source.service done.2,
        (w'.pool m.importing).portOf? b.1 = some b.2 := by
  obtain ⟨new, hnew, -, hbound⟩ := m.published_renderPorts way route h
  rw [List.nil_append] at hnew
  rw [← hnew] at hbound
  refine ⟨ofService_announced hs (numbered_renderPorts m way route h nofun) fun p hp q hq he => ?_,
    fun b hb => ?_⟩
  · -- Equal ports are one exported port, and that has one bind port.
    have hsame := hbound p hp
    rw [he, hbound q hq] at hsame
    exact (Option.some.inj hsame).symm
  · obtain ⟨t, ht, rfl⟩ := List.mem_map.1 hb
    exact hbound t ht

end Recovery

end HubFederation
