import HubFederation.Chain.Basic
import HubFederation.Proofs.Endpoint.RoundTrip
import HubFederation.Proofs.Json.RoundTrip

/-!
# Chains in JSON

The chains that a hub runs are written as JSON in which every endpoint of a stack stands as its
text. Nothing marks the parts of these texts but their separators, so chains are read back only if
all of their endpoints are.

* `parse?_listToJson_iff`: chains are read back if and only if every endpoint is canonical.
-/
namespace HubFederation

theorem Endpoint.ofJson?_toJson_iff {e : Endpoint} : ofJson? e.toJson = some e ↔ e.Canonical := by
  have hread : ofJson? e.toJson = (parse e.text).toOption := rfl
  rw [hread]
  constructor
  · intro h
    cases hparse : parse e.text with
    | error err =>
      rw [hparse] at h
      cases h
    | ok e' =>
      rw [hparse] at h
      cases h
      exact canonical_of_parse hparse
  · intro h
    rw [parse_text_of_canonical h]
    rfl

namespace Chain

/-- Every endpoint of a chain. -/
def endpoints (c : Chain) : List Endpoint := c.bind ++ c.proxy

theorem plain_toJson (c : Chain) : c.toJson.Plain := by
  have hstack (stack : List Endpoint) : (Json.arr (stack.map Endpoint.toJson)).Plain := by
    refine .arr fun j hj => ?_
    obtain ⟨e, -, rfl⟩ := List.mem_map.1 hj
    exact .str _
  refine .obj fun m hm => ?_
  simp only [List.mem_cons, List.not_mem_nil, or_false] at hm
  rcases hm with rfl | rfl
  · exact hstack c.bind
  · exact hstack c.proxy

theorem ofJson?_toJson_iff {c : Chain} :
    ofJson? c.toJson = some c ↔ ∀ e ∈ c.endpoints, e.Canonical := by
  have hread : ofJson? c.toJson =
      (Json.list? Endpoint.ofJson? (.arr (c.bind.map Endpoint.toJson))).bind fun bind =>
        (Json.list? Endpoint.ofJson? (.arr (c.proxy.map Endpoint.toJson))).bind fun proxy =>
          some ⟨bind, proxy⟩ := rfl
  have hstack (stack : List Endpoint) :
      Json.list? Endpoint.ofJson? (.arr (stack.map Endpoint.toJson)) = some stack ↔
        ∀ e ∈ stack, e.Canonical := by
    rw [Json.list?_map_iff]
    exact forall₂_congr fun _ _ => Endpoint.ofJson?_toJson_iff
  unfold endpoints
  rw [hread, List.forall_mem_append, ← hstack, ← hstack]
  constructor
  · intro h
    obtain ⟨bind, hbind, h⟩ := Option.bind_eq_some_iff.1 h
    obtain ⟨proxy, hproxy, h⟩ := Option.bind_eq_some_iff.1 h
    cases h
    exact ⟨hbind, hproxy⟩
  · rintro ⟨hbind, hproxy⟩
    rw [hbind, Option.bind_some, hproxy, Option.bind_some]

/-- Chains are read back from their JSON if and only if each of their endpoints is from its text. -/
theorem parse?_listToJson_iff {cs : List Chain} :
    (Json.parse? (listToJson cs).compact).bind listOfJson? = some cs ↔
      ∀ c ∈ cs, ∀ e ∈ c.endpoints, e.Canonical := by
  have hplain : (listToJson cs).Plain := .arr fun j hj => by
    obtain ⟨c, -, rfl⟩ := List.mem_map.1 hj
    exact c.plain_toJson
  rw [Json.parse?_compact hplain, Option.bind_some]
  refine Json.list?_map_iff.trans ?_
  exact forall₂_congr fun _ _ => ofJson?_toJson_iff

end Chain

end HubFederation
