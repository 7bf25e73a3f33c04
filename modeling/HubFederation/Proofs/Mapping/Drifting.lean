import HubFederation.Proofs.Mapping.Reading

/-!
# What becomes of bind ports

Whoever asks for a port, or registers what is on record on a hub, may bind ports and may move a
peer to another port, but leaves no peer without one. That is all that a controller does to bind
ports.

* `World.Drifts`: what happens to bind ports while nobody gives any back.
* `Drifts.keeps`: peers that have a port keep one, and no port gets a second peer.
* `Steps.drifts`: what a controller does before it writes is of this kind.
-/
namespace HubFederation

namespace PortPool

variable {p q : PortPool} {peer : ExportedPort} {port : Port}

theorem bound_register (h : p.register peer port = .ok q) {peer' : ExportedPort}
    (hp : p.portOf? peer' ≠ none) : q.portOf? peer' ≠ none := by
  rcases register_cases h with ⟨-, rfl⟩ | ⟨-, rfl⟩
  · exact hp
  · change (p.rebind peer port).portOf? peer' ≠ none
    rw [portOf?_rebind]
    split
    · exact Option.some_ne_none port
    · exact hp

theorem bound_load (bindings : List (ExportedPort × Port)) (hp : p.portOf? peer ≠ none) :
    (p.load bindings).1.portOf? peer ≠ none :=
  load_induction (motive := fun q => q.portOf? peer ≠ none) hp fun _ _ hr => bound_register hr

/-- A pool that has bound a port to two peers has bound it to one. -/
theorem eq_of_portOf? (h : p.Used) {peer' : ExportedPort} (hp : p.portOf? peer = some port)
    (hp' : p.portOf? peer' = some port) : peer = peer' := by
  rw [oneToOne_of_used h] at hp hp'
  exact Option.some.inj (hp.symm.trans hp')

end PortPool

theorem PortPools.register_eq_ok {ps ps' : PortPools} {hub : String} {peer : ExportedPort}
    {port : Port} (h : ps.register hub peer port = .ok ps') :
    ∃ p, (ps.pool hub).register peer port = .ok p ∧ ps' = ps.setPool hub p := by
  unfold register at h
  cases hp : (ps.pool hub).register peer port with
  | error e => rw [hp] at h; cases h
  | ok p => rw [hp] at h; cases h; exact ⟨p, rfl, rfl⟩

namespace World

/-- Every pool came about by binding ports and giving them back. -/
def Used (w : World) : Prop := ∀ hub, (w.pool hub).Used

/-- Changing the pool of one hub leaves all pools used if it leaves that one so. -/
theorem Used.setPool {w w' : World} (hu : w.Used) {hub : String} {p : PortPool}
    (h : w'.fleet.ports = w.fleet.ports.setPool hub p) (hp : p.Used) : w'.Used := by
  intro hub'
  unfold pool
  rw [h]
  by_cases hhub : hub' = hub
  · rw [hhub, PortPools.pool_setPool_self]
    exact hp
  · rw [PortPools.pool_setPool_of_ne _ _ hhub]
    exact hu hub'

theorem used_releasePort {w : World} (hu : w.Used) (owner : Owner) (hub : String)
    (peer : ExportedPort) : (w.releasePort owner hub peer).Used := by
  unfold releasePort
  split
  · exact hu.setPool rfl ((hu hub).release peer)
  · exact hu

/-! ## Drifting -/

/-- What may happen while nobody gives ports back: somebody asks for a port, registers what is
on record on a hub, be it all of it or one binding, or does something that leaves bind ports
alone, like a change of hubs and services. -/
inductive Drifts : World → World → Prop where
  | elsewhere {w w' : World} (h : w'.fleet.ports = w.fleet.ports) : Drifts w w'
  | get (w : World) (owner : Owner) (hub : String) (peer : ExportedPort) :
    Drifts w (w.getPort owner hub peer).1
  | load (w : World) (owner : Owner) (hub : String) (bindings : Recovery.Bindings) :
    Drifts w (w.loadPorts owner hub bindings)
  | register {w : World} {hub : String} {peer : ExportedPort} {port : Port} {ports : PortPools}
    (h : w.fleet.ports.register hub peer port = .ok ports) : Drifts w (w.setPorts ports)
  | trans {w w' w'' : World} (h : Drifts w w') (h' : Drifts w' w'') : Drifts w w''

/-- Peers that have a port in `w` have one in `w'`, and pools are used as they were. -/
structure Keeps (w w' : World) : Prop where
  bound : ∀ {hub peer}, (w.pool hub).portOf? peer ≠ none → (w'.pool hub).portOf? peer ≠ none
  used : w.Used → w'.Used

theorem Keeps.trans {w w' w'' : World} (h : w.Keeps w') (h' : w'.Keeps w'') : w.Keeps w'' :=
  ⟨h'.bound ∘ h.bound, h'.used ∘ h.used⟩

theorem keeps_of_ports {w w' : World} (h : w'.fleet.ports = w.fleet.ports) : w.Keeps w' := by
  have hpool (hub : String) : w'.pool hub = w.pool hub := by
    unfold pool
    rw [h]
  refine ⟨fun hp => ?_, fun hu hub => ?_⟩
  · rwa [hpool]
  · rw [hpool]
    exact hu hub

theorem keeps_setPool {w w' : World} {hub : String} {p : PortPool}
    (h : w'.fleet.ports = w.fleet.ports.setPool hub p)
    (hbound : ∀ {peer}, (w.pool hub).portOf? peer ≠ none → p.portOf? peer ≠ none)
    (hused : (w.pool hub).Used → p.Used) : w.Keeps w' := by
  refine ⟨fun {hub' peer} hp => ?_, fun hu => hu.setPool h (hused (hu hub))⟩
  unfold pool at hp ⊢
  rw [h]
  by_cases hhub : hub' = hub
  · rw [hhub] at hp ⊢
    rw [PortPools.pool_setPool_self]
    exact hbound hp
  · rwa [PortPools.pool_setPool_of_ne _ _ hhub]

theorem keeps_getPort (w : World) (owner : Owner) (hub : String) (peer : ExportedPort) :
    w.Keeps (w.getPort owner hub peer).1 := by
  unfold getPort
  split
  · exact keeps_of_ports rfl
  · split
    next hget =>
      obtain ⟨q, hq, rfl⟩ := PortPools.get_eq_ok hget
      refine keeps_setPool rfl (fun {peer'} hp => ?_) fun hu => hu.get hq
      obtain ⟨port, hport⟩ := Option.ne_none_iff_exists'.1 hp
      rw [(PortPool.grows_get hq).1.kept hport]
      exact Option.some_ne_none port
    · exact keeps_of_ports rfl

theorem Drifts.keeps {w w' : World} (h : w.Drifts w') : w.Keeps w' := by
  induction h with
  | elsewhere h => exact keeps_of_ports h
  | get w owner hub peer => exact w.keeps_getPort owner hub peer
  | load w owner hub bindings =>
    exact keeps_setPool rfl (PortPool.bound_load bindings) (PortPool.used_load bindings)
  | register h =>
    obtain ⟨p, hp, rfl⟩ := PortPools.register_eq_ok h
    exact keeps_setPool rfl (PortPool.bound_register hp) fun hu => hu.register hp
  | trans _ _ ih ih' => exact ih.trans ih'

end World

namespace Mapping

/-! ## Controllers -/

theorem Steps.drifts {pair : String × String} {allowed : Step → Prop} {w w' : World}
    (h : Steps pair allowed w w') : w.Drifts w' := by
  refine h.related (fun _ => .elsewhere rfl) .trans fun s _ w => ?_
  cases s with
  | count _ | listed _ | listFailed _ | report _ _ => exact .elsewhere rfl
  | load bindings => exact .load w (some pair) pair.2 bindings
  | get peer => exact .get w (some pair) pair.2 peer

end Mapping

end HubFederation
