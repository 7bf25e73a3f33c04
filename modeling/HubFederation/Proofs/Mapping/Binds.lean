import HubFederation.Proofs.Mapping.Reading
import HubFederation.Proofs.Routes.Records

/-!
# What a synchronization binds

A controller binds ports of its importing hub only, and in two ways: while it reads that hub,
those that a ConfigMap of the pair records, and while it renders, those that its routes
publish.

* `Steps.binds`: there is no third way.
-/
namespace HubFederation

/-! ## Pools -/

theorem PortPool.portOf?_load {p : PortPool} {bindings : Recovery.Bindings} {peer : ExportedPort} :
    (p.load bindings).1.portOf? peer ≠ none →
      p.portOf? peer ≠ none ∨ peer ∈ bindings.map (·.1) := by
  refine load_induction (motive := fun q => q.portOf? peer ≠ none →
    p.portOf? peer ≠ none ∨ peer ∈ bindings.map (·.1)) .inl fun b hb hr hp h => ?_
  by_cases he : peer = b.1
  · exact .inr (he ▸ List.mem_map_of_mem hb)
  · rw [portOf?_register_of_ne hr he] at h
    exact hp h

namespace World

/-- A port that is bound in `w'` was bound in `w`, or is one of these. -/
def BindsOnly (those : String → ExportedPort → Prop) (w w' : World) : Prop :=
  ∀ hub peer, (w'.pool hub).portOf? peer ≠ none →
    (w.pool hub).portOf? peer ≠ none ∨ those hub peer

variable {those those' : String → ExportedPort → Prop} {w w' w'' : World}

theorem BindsOnly.of_ports (h : w'.fleet.ports = w.fleet.ports) : BindsOnly those w w' := by
  intro hub peer hp
  unfold pool at hp ⊢
  rw [h] at hp
  exact .inl hp

theorem BindsOnly.trans (h : BindsOnly those w w') (h' : BindsOnly those w' w'') :
    BindsOnly those w w'' :=
  fun hub peer hp => (h' hub peer hp).elim (h hub peer) .inr

theorem BindsOnly.mono (h : BindsOnly those w w')
    (hsub : ∀ {hub peer}, those hub peer → those' hub peer) : BindsOnly those' w w' :=
  fun hub peer hp => (h hub peer hp).imp_right hsub

theorem binds_getPort (w : World) (owner : Owner) (hub : String) (peer : ExportedPort) :
    BindsOnly (fun hub' peer' => hub' = hub ∧ peer' = peer) w (w.getPort owner hub peer).1 := by
  intro hub' peer' hp
  rcases w.portOf?_getPort owner hub peer hub' peer' with he | ⟨hhub, hpeer, -⟩
  · rw [he] at hp
    exact .inl hp
  · exact .inr ⟨hhub, hpeer⟩

theorem binds_loadPorts (w : World) (owner : Owner) (hub : String)
    (bindings : Recovery.Bindings) :
    BindsOnly (fun hub' peer => hub' = hub ∧ peer ∈ bindings.map (·.1)) w
      (w.loadPorts owner hub bindings) := by
  intro hub' peer hp
  by_cases hhub : hub' = hub
  · subst hhub
    rw [pool_loadPorts_self] at hp
    exact (PortPool.portOf?_load hp).imp_right fun h => ⟨rfl, h⟩
  · change ((w.fleet.ports.setPool hub _).pool hub').portOf? peer ≠ none at hp
    rw [PortPools.pool_setPool_of_ne _ _ hhub] at hp
    exact .inl hp

end World

namespace Mapping

/-- A ConfigMap of the pair on its importing hub records a bind port of the peer. -/
def Finds (m : Mapping) (f : Fleet) (peer : ExportedPort) : Prop :=
  ∃ cm ∈ f.list m.importing m.labels, cm.kind? = some .service ∧
    ∃ bindings, Recovery.ofConfigMap cm = .ok bindings ∧ peer ∈ bindings.map (·.1)

/-- What a controller does before it writes binds ports of its importing hub that are recorded
there, and those that it asks for. -/
theorem Steps.binds {m : Mapping} {f : Fleet} {asked : ExportedPort → Prop} {w w' : World}
    (h : Steps m.pair (m.Takes f asked) w w') :
    World.BindsOnly (fun hub peer => hub = m.importing ∧ (m.Finds f peer ∨ asked peer)) w w' := by
  refine h.related (fun _ => .of_ports rfl) .trans fun s hs w => ?_
  cases s with
  | count _ | listed _ | listFailed _ | report _ _ => exact .of_ports rfl
  | load bindings =>
    obtain ⟨cm, hcm, hkind, hbindings⟩ := hs.resolve_right (nomatch ·)
    refine (w.binds_loadPorts (some m.pair) m.importing bindings).mono ?_
    rintro hub peer ⟨rfl, hmem⟩
    exact ⟨rfl, .inl ⟨cm, hcm, hkind, bindings, hbindings, hmem⟩⟩
  | get peer =>
    have hasked := hs.resolve_left (nomatch ·)
    refine (w.binds_getPort (some m.pair) m.importing peer).mono ?_
    rintro hub _ ⟨rfl, rfl⟩
    exact ⟨rfl, .inr hasked⟩

end Mapping

end HubFederation
