import HubFederation.Proofs.Json.RoundTrip
import HubFederation.Proofs.Render.Owned
import HubFederation.Recovery
import Mathlib.Data.List.Nodup

/-!
# What a published service records

The ConfigMap of a published service holds its ports as JSON, each with the bind port of its
tunnel. Reading it gives back the exported ports with their bind ports. No other ConfigMap of a
tunnel is read so.

* `parse?_listToJson`: written ports are read back.
* `ofConfigMap_service`: a service ConfigMap gives back the bindings that it was made of.
-/
namespace HubFederation

/-! ## Ports in JSON -/

namespace TunnelPort

theorem plain_toJson (p : TunnelPort) : p.toJson.Plain := by
  refine .obj fun m hm => ?_
  simp only [List.mem_cons, List.not_mem_nil, or_false] at hm
  rcases hm with rfl | rfl | rfl | rfl
  · exact .str p.name
  · exact .str p.protocol
  · exact .num p.port.toNat
  · exact .num p.targetPort.toNat

theorem uint16?_ofNat (p : Port) : (Json.ofNat p.toNat).uint16? = some p := by
  have hle := Port.toNat_le p
  have hrange : (0 : Int) ≤ p.toNat ∧ (p.toNat : Int) ≤ 65535 := by omega
  unfold Json.uint16? Json.ofNat Json.int?
  simp only [if_pos hrange, Option.map_some, Int.toNat_natCast, UInt16.ofNat_toNat]

/-- The members of a written port. -/
def record (p : TunnelPort) : Json.Record :=
  ⟨[("name", .str p.name), ("protocol", .str p.protocol), ("port", .ofNat p.port.toNat),
    ("targetPort", .ofNat p.targetPort.toNat)]⟩

theorem ofJson?_toJson (p : TunnelPort) : ofJson? p.toJson = some p := by
  have hrecord : Json.Record.ofJson? ["name", "protocol", "port", "targetPort"] p.toJson =
    some p.record := rfl
  have hname : p.record.required "name" Json.string? = some p.name := rfl
  have hprotocol : p.record.required "protocol" Json.string? = some p.protocol := rfl
  have hport : p.record.required "port" Json.uint16? = some p.port := uint16?_ofNat p.port
  have htarget : p.record.required "targetPort" Json.uint16? = some p.targetPort :=
    uint16?_ofNat p.targetPort
  unfold ofJson?
  simp only [hrecord, hname, hprotocol, hport, htarget, Option.bind_eq_bind, Option.bind_some,
    Option.pure_def]

/-- Written ports are read back. -/
theorem parse?_listToJson (ps : List TunnelPort) :
    (Json.parse? (listToJson ps).compact).bind (Json.list? ofJson?) = some ps := by
  have hplain : (listToJson ps).Plain := .arr fun j hj => by
    obtain ⟨p, -, rfl⟩ := List.mem_map.1 hj
    exact plain_toJson p
  rw [Json.parse?_compact hplain, Option.bind_some]
  exact Json.list?_map_iff.2 fun p _ => ofJson?_toJson p

end TunnelPort

/-! ## Kinds -/

theorem Labels.configOf?_withConfig (l : Labels) (kind : ConfigKind) :
    (l.withConfig kind).configOf? = some kind := by
  unfold withConfig configOf?
  rw [SortedMap.get?_insert_self]
  cases kind <;> rfl

/-- What a hub of a tunnel needs is no service. -/
theorem Render.kind?_hubConfigMaps {owner : Labels} {t : Tunnel}
    {authorized : String → Option String} {b : Bound} :
    ∀ cm ∈ hubConfigMaps owner t authorized b, cm.kind? ≠ some .service := by
  have hkind (name : String) (kind : ConfigKind) (data : List (String × String)) :
      (ConfigMap.rendered name (owner.withConfig kind) data).kind? = some kind :=
    owner.configOf?_withConfig kind
  intro cm h
  obtain ⟨x, hx⟩ := mem_hubConfigMaps_iff.1 h
  cases hx with
  | rules => simp [rules, hkind]
  | allows => simp [allows, hkind]
  | key => simp [authorizedKey, hkind]

/-! ## Service ConfigMaps -/

/-- A map from entries with different keys holds each of them. -/
theorem SortedMap.get?_ofList_of_mem {κ α : Type} [Key κ] {es : List (κ × α)}
    (hn : (es.map (·.1)).Nodup) {k : κ} {a : α} (h : (k, a) ∈ es) :
    (SortedMap.ofList es).get? k = some a := by
  have hkey : k ∈ (SortedMap.ofList es).keys :=
    SortedMap.mem_keys_ofList.2 (List.mem_map.2 ⟨(k, a), h, rfl⟩)
  obtain ⟨b, hb⟩ := Option.isSome_iff_exists.1 (SortedMap.mem_keys_iff.1 hkey)
  have hsame : b = a :=
    congrArg Prod.snd (List.inj_on_of_nodup_map hn (SortedMap.mem_of_get?_ofList hb) h rfl)
  rw [hb, hsame]

namespace Recovery

/-- The bindings that a tunnel's service publishes. -/
def published (hub : String) (source : ServiceRef) (ports : List TunnelPort) : Bindings :=
  ports.map fun p => (⟨hub, source.ns, source.name, p.port⟩, p.targetPort)

theorem kind?_service (exporting importing route : String) (spec : RouteSpec)
    (ports : List TunnelPort) :
    (Render.service (.pair exporting importing) route spec ports).kind? = some .service := by
  have hkind : (Render.service (.pair exporting importing) route spec ports).labelSet.get?
      Labels.configKey = some ConfigKind.service.text := by
    refine (SortedMap.get?_insert_of_ne _ _ (by decide)).trans ?_
    refine (SortedMap.get?_insert_of_ne _ _ (by decide)).trans ?_
    refine (SortedMap.get?_insert_of_ne _ _ (by decide)).trans ?_
    exact SortedMap.get?_insert_self ..
  unfold ConfigMap.kind? Labels.configOf?
  rw [hkind]
  rfl

theorem get?_service (owner : Labels) (route : String) (spec : RouteSpec) (ports : List TunnelPort)
    {k v : String} (h : (k, v) ∈ [(DataKey.exportHubName, spec.source.hub),
      (DataKey.exportServiceNamespace, spec.source.service.ns),
      (DataKey.exportServiceName, spec.source.service.name),
      (DataKey.importServiceNamespace, spec.target.service.ns),
      (DataKey.importServiceName, spec.target.service.name),
      (DataKey.ports, (TunnelPort.listToJson ports).compact)]) :
    (Render.service owner route spec ports).get? k = some v := by
  refine SortedMap.get?_ofList_of_mem ?_ h
  simp only [List.map_cons, List.map_nil]
  decide

/-- A service ConfigMap gives back the bindings that it was made of. -/
theorem ofConfigMap_service (exporting importing route : String) (spec : RouteSpec)
    (ports : List TunnelPort) :
    ofConfigMap (Render.service (.pair exporting importing) route spec ports) =
      .ok (published exporting spec.source.service ports) := by
  have hhub : (Render.service (.pair exporting importing) route spec ports).labelSet.get?
      Labels.exportedFrom = some exporting :=
    (Labels.selects_pair_iff.1
      (Render.renderedFor_service exporting importing route spec ports).labeled).1
  have hns : (Render.service (.pair exporting importing) route spec ports).get?
      DataKey.exportServiceNamespace = some spec.source.service.ns :=
    get?_service _ route spec ports (by simp)
  have hname : (Render.service (.pair exporting importing) route spec ports).get?
      DataKey.exportServiceName = some spec.source.service.name :=
    get?_service _ route spec ports (by simp)
  have hports : (Render.service (.pair exporting importing) route spec ports).get?
      DataKey.ports = some (TunnelPort.listToJson ports).compact :=
    get?_service _ route spec ports (by simp)
  unfold ofConfigMap
  rw [if_neg (by simp [kind?_service]), hhub, hns, hname, hports]
  simp only [TunnelPort.parse?_listToJson]
  rfl

end Recovery

end HubFederation
