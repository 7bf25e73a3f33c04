import HubFederation.SortedMap

/-!
# Gateways

A gateway tells how a hub is dialed by its peers and how it dials out. Each hub
has one, and may show some peers another one.

A way hint lists hubs from the farthest to the nearest, as seen from the hub that
declares it.

* `Graph.network`: a finite table of gateways names finitely many hubs.
-/
namespace HubFederation

/-- A relay on the way to a hub. -/
inductive Hop where
  /-- The tunnel of another hub. -/
  | hub (name : String)
  /-- A proxy, by its address text. -/
  | proxy (uri : String)
  deriving DecidableEq, Repr

structure Gateway where
  /-- Whether peers can dial the hub. -/
  reachable : Bool
  /-- Where the hub's tunnel listens. -/
  address : String
  /-- Hubs that the hub goes through to dial out. -/
  navigationWay : List String
  /-- Hubs that peers go through to dial the hub. -/
  receptionWay : List String
  navigationProxy : List Hop
  receptionProxy : List Hop
  deriving DecidableEq, Repr

namespace Gateway

/-- The gateway of a hub of which nothing is known.
mirrors `Gateway.unreachable` -/
def unknown : Gateway := ⟨false, "", [], [], [], []⟩

instance : Inhabited Gateway := ⟨unknown⟩

/-- Every hub that a way hint names. -/
def hintNames (g : Gateway) : List String := g.navigationWay ++ g.receptionWay

end Gateway

/-- The gateway of a hub (first argument) as a peer (second argument) sees it. -/
abbrev Gateways := String → String → Gateway

/-- Gateways whose way hints name finitely many hubs. -/
structure Network where
  gateway : Gateways
  names : List String
  hintNames_subset : ∀ hub peer, (gateway hub peer).hintNames ⊆ names

/-- The gateways of finitely many hubs, and what these hubs show to some peers instead. -/
structure Graph where
  gateways : SortedMap String Gateway
  overrides : SortedMap String (SortedMap String Gateway)
  deriving DecidableEq

namespace Graph

def empty : Graph := ⟨∅, ∅⟩

/-- What `hub` shows to `peer`: its override for it, else its gateway, else nothing. -/
def gateway (g : Graph) : Gateways := fun hub peer =>
  match (g.overrides.getD hub ∅).get? peer with
  | some seen => seen
  | none => g.gateways.getD hub .unknown

/-- Every gateway of the graph. -/
def all (g : Graph) : List Gateway :=
  g.gateways.values ++ g.overrides.values.flatMap (·.values)

theorem gateway_mem (g : Graph) (hub peer : String) :
    g.gateway hub peer ∈ g.all ∨ g.gateway hub peer = .unknown := by
  unfold gateway all SortedMap.getD
  split
  next seen h =>
    cases ho : g.overrides.get? hub with
    | none => simp [ho] at h
    | some m =>
      rw [ho, Option.getD_some, ← SortedMap.mem_entries_iff] at h
      rw [← SortedMap.mem_entries_iff] at ho
      refine .inl (List.mem_append_right _ (List.mem_flatMap.2 ⟨m, ?_, ?_⟩))
      · exact List.mem_map.2 ⟨_, ho, rfl⟩
      · exact List.mem_map.2 ⟨_, h, rfl⟩
  · cases hg : g.gateways.get? hub with
    | none => exact .inr rfl
    | some gw =>
      rw [← SortedMap.mem_entries_iff] at hg
      exact .inl (List.mem_append_left _ (List.mem_map.2 ⟨_, hg, rfl⟩))

/-- The graph as a network: its hints name the hubs that its gateways name. -/
def network (g : Graph) : Network where
  gateway := g.gateway
  names := g.all.flatMap (·.hintNames)
  hintNames_subset hub peer name h := by
    rcases g.gateway_mem hub peer with hm | hm
    · exact List.mem_flatMap.2 ⟨_, hm, h⟩
    · rw [hm] at h; cases h

end Graph

end HubFederation
