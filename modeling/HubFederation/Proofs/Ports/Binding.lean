import HubFederation.PortPool

/-!
# Who has which port

Whatever is done to a pool, it binds a port to one peer at most and a peer to one port at most: the
port of a peer and the peer of a port are looked up in two maps, and each tells what the other does.
So bindings that one pool holds can be registered in an empty one without a conflict, and in any
order.

* `get_cases`, `register_cases`: everything that can become of a pool that binds a port.
* `load_induction`: what registering one binding keeps, registering a batch keeps.
* `oneToOne_of_used`: the two sides of a pool tell the same.
* `load_of_partOf`: bindings of one pool are registered in another one that has no others.
-/
namespace HubFederation.PortPool

variable {p q old : PortPool} {peer : ExportedPort} {port : Port}

/-- The port of a peer and the peer of a port are each other's inverse. -/
def OneToOne (p : PortPool) : Prop :=
  ∀ peer port, p.portOf? peer = some port ↔ p.peerOf? port = some peer

/-- A pool that came about by binding ports and giving them back. -/
inductive Used : PortPool → Prop where
  | unbound {p : PortPool} (h : p.bound = ∅) : Used p
  | get {p q : PortPool} {peer : ExportedPort} {port : Port} (before : Used p)
    (h : p.get peer = .ok (port, q)) : Used q
  | register {p q : PortPool} {peer : ExportedPort} {port : Port} (before : Used p)
    (h : p.register peer port = .ok q) : Used q
  | release {p : PortPool} (before : Used p) (peer : ExportedPort) : Used (p.release peer)

/-! ## What is done to a pool -/

theorem peerOf?_firstFree {n : Nat} {start free : Port} (h : p.firstFree n start = some free) :
    p.peerOf? free = none := by
  induction n generalizing start with
  | zero => cases h
  | succ n ih =>
    rw [firstFree] at h
    split at h
    next hfree =>
      cases h
      simpa using hfree
    · exact ih h

theorem rebind_of_portOf? (h : p.portOf? peer = none) : p.rebind peer port = p.bind peer port := by
  unfold rebind PortTable.rebind
  rw [show p.bound.ports.get? peer = none from h]
  rfl

/-- Getting a port leaves the pool as it is, or binds a port that is free and moves the cursor
behind it. -/
theorem get_cases (h : p.get peer = .ok (port, q)) :
    (p.portOf? peer = some port ∧ q = p) ∨
      (p.portOf? peer = none ∧ p.firstFree p.capacity p.cursor = some port ∧
        q = { p.rebind peer port with cursor := p.next port }) := by
  unfold get at h
  split at h
  next hp =>
    cases h
    exact .inl ⟨hp, rfl⟩
  next hp =>
    split at h
    next hfree =>
      cases h
      exact .inr ⟨hp, hfree, by rw [rebind_of_portOf? hp]⟩
    · cases h

/-- Registering a binding leaves the pool as it is, or binds a port that is free; the cursor moves
if it has not passed the port. -/
theorem register_cases (h : p.register peer port = .ok q) :
    (p.peerOf? port = some peer ∧ q = p) ∨
      (p.peerOf? port = none ∧ q = { p.rebind peer port with
        cursor := if p.holds port && p.cursor ≤ port then p.next port else p.cursor }) := by
  unfold register at h
  split at h
  next owner howner =>
    split at h
    next he =>
      cases h
      exact .inl ⟨he ▸ howner, rfl⟩
    · cases h
  next hfree =>
    cases h
    exact .inr ⟨hfree, rfl⟩

/-- Getting a port binds none but that of the peer. -/
theorem portOf?_get (h : p.get peer = .ok (port, q)) (peer' : ExportedPort) :
    q.portOf? peer' = if peer' = peer then some port else p.portOf? peer' := by
  rcases get_cases h with ⟨hp, rfl⟩ | ⟨-, -, rfl⟩
  · split
    next he => rw [he, hp]
    · rfl
  · exact p.portOf?_rebind peer peer' port

/-- Registering a binding changes the port of no other peer. -/
theorem portOf?_register_of_ne (h : p.register peer port = .ok q) {peer' : ExportedPort}
    (hne : peer' ≠ peer) : q.portOf? peer' = p.portOf? peer' := by
  rcases register_cases h with ⟨-, rfl⟩ | ⟨-, rfl⟩
  · rfl
  · exact (p.portOf?_rebind peer peer' port).trans (if_neg hne)

/-- The peer of a binding that was registered has the port. -/
theorem portOf?_register_self (h : p.register peer port = .ok q) (hp : p.OneToOne) :
    q.portOf? peer = some port := by
  rcases register_cases h with ⟨howner, rfl⟩ | ⟨-, rfl⟩
  · exact (hp peer port).2 howner
  · exact (p.portOf?_rebind peer peer port).trans (if_pos rfl)

/-- Binding a port that is free, the peer giving up its own, keeps a pool one to one. -/
theorem OneToOne.rebind (h : p.OneToOne) (hfree : p.peerOf? port = none) (peer : ExportedPort) :
    (p.rebind peer port).OneToOne := by
  intro peer' port'
  have hport : p.portOf? peer' ≠ some port := fun he => by
    rw [(h peer' port).1 he] at hfree
    cases hfree
  rw [portOf?_rebind, peerOf?_rebind]
  by_cases hpeer : peer' = peer
  · subst hpeer
    rw [if_pos rfl, Option.some_inj]
    have hsame := h peer' port'
    grind
  · have hsame := h peer' port'
    have hown := h peer port'
    grind

theorem OneToOne.release (h : p.OneToOne) (peer : ExportedPort) : (p.release peer).OneToOne := by
  intro peer' port
  rw [portOf?_release, peerOf?_release]
  have hsame := h peer' port
  have hown := h peer port
  grind

theorem oneToOne_get (h : p.OneToOne) (hg : p.get peer = .ok (port, q)) : q.OneToOne := by
  rcases get_cases hg with ⟨-, rfl⟩ | ⟨-, hfree, rfl⟩
  · exact h
  · exact h.rebind (peerOf?_firstFree hfree) peer

theorem oneToOne_register (h : p.OneToOne) (hr : p.register peer port = .ok q) : q.OneToOne := by
  rcases register_cases hr with ⟨-, rfl⟩ | ⟨hfree, rfl⟩
  · exact h
  · exact h.rebind hfree peer

theorem oneToOne_of_unbound (h : p.bound = ∅) : p.OneToOne := by
  intro peer port
  unfold portOf? peerOf?
  rw [h]
  exact ⟨fun h => (nomatch h), fun h => (nomatch h)⟩

/-- The two sides of a pool tell the same. -/
theorem oneToOne_of_used (h : p.Used) : p.OneToOne := by
  induction h with
  | unbound h => exact oneToOne_of_unbound h
  | get _ hg ih => exact oneToOne_get ih hg
  | register _ hr ih => exact oneToOne_register ih hr
  | release _ peer ih => exact ih.release peer

/-- Registering a batch keeps what registering each of its bindings keeps. -/
theorem load_induction {motive : PortPool → Prop} {bindings : List (ExportedPort × Port)}
    (hp : motive p) (hstep : ∀ {p q : PortPool}, ∀ b ∈ bindings, p.register b.1 b.2 = .ok q →
      motive p → motive q) : motive (p.load bindings).1 := by
  induction bindings generalizing p with
  | nil => exact hp
  | cons b rest ih =>
    rw [load]
    split
    next hr =>
      exact ih (hstep b (List.mem_cons_self ..) hr hp)
        fun b' hb' => hstep b' (List.mem_cons_of_mem _ hb')
    · exact hp

theorem used_load (bindings : List (ExportedPort × Port)) (h : p.Used) :
    (p.load bindings).1.Used :=
  load_induction h fun _ _ hr hp => hp.register hr

/-! ## Bindings of another pool -/

/-- All that `p` has bound is bound in `q` as well. -/
def Within (p q : PortPool) : Prop :=
  ∀ ⦃peer port⦄, p.portOf? peer = some port → q.portOf? peer = some port

theorem Within.refl (p : PortPool) : p.Within p := fun _ _ h => h

theorem Within.trans {r : PortPool} (h : p.Within q) (h' : q.Within r) : p.Within r :=
  fun _ _ hp => h' (h hp)

/-- A pool that has nothing bound but what another one has. -/
structure PartOf (p old : PortPool) : Prop where
  oneToOne : p.OneToOne
  within : p.Within old

theorem partOf_of_unbound (h : p.bound = ∅) (old : PortPool) : p.PartOf old := by
  refine ⟨oneToOne_of_unbound h, fun peer port hp => ?_⟩
  unfold portOf? at hp
  rw [h] at hp
  cases hp

/-- A binding of a one-to-one pool can be registered where nothing but such bindings are. -/
theorem register_of_partOf (ho : old.OneToOne) (hp : p.PartOf old)
    (h : old.portOf? peer = some port) : ∃ q, p.register peer port = .ok q ∧
      p.Within q ∧ q.portOf? peer = some port ∧ q.PartOf old := by
  cases howner : p.peerOf? port with
  | some owner =>
    have hbound := (hp.oneToOne owner port).2 howner
    -- The old pool has bound the port to one peer only.
    have hpeer := ((ho owner port).1 (hp.within hbound)).symm.trans ((ho peer port).1 h)
    cases hpeer
    refine ⟨p, ?_, .refl p, hbound, hp⟩
    unfold register
    simp [howner]
  | none =>
    -- The peer has no port yet: it could only have the one that is free.
    have hnone : p.portOf? peer = none := by
      refine Option.eq_none_iff_forall_ne_some.2 fun port' hport' => ?_
      cases (hp.within hport').symm.trans h
      rw [(hp.oneToOne peer port).1 hport'] at howner
      cases howner
    have hr : ∃ q, p.register peer port = .ok q := by
      unfold register
      rw [howner]
      exact ⟨_, rfl⟩
    obtain ⟨q, hq⟩ := hr
    have hself := portOf?_register_self hq hp.oneToOne
    refine ⟨q, hq, fun peer' port' h' => ?_, hself, oneToOne_register hp.oneToOne hq,
      fun peer' port' h' => ?_⟩
    · rw [portOf?_register_of_ne hq, h']
      rintro rfl
      rw [hnone] at h'
      cases h'
    · by_cases he : peer' = peer
      · rw [he] at h' ⊢
        exact h.trans (hself.symm.trans h')
      · rw [portOf?_register_of_ne hq he] at h'
        exact hp.within h'

/-- Bindings of a one-to-one pool can be registered where nothing but such bindings are. -/
theorem load_of_partOf (ho : old.OneToOne) (bindings : List (ExportedPort × Port))
    (hp : p.PartOf old) (h : ∀ b ∈ bindings, old.portOf? b.1 = some b.2) :
    (p.load bindings).2 = .ok () ∧ p.Within (p.load bindings).1 ∧
      (∀ b ∈ bindings, (p.load bindings).1.portOf? b.1 = some b.2) ∧
      (p.load bindings).1.PartOf old := by
  induction bindings generalizing p with
  | nil => exact ⟨rfl, .refl p, by simp, hp⟩
  | cons b rest ih =>
    obtain ⟨q, hq, hkept, hbound, hpart⟩ :=
      register_of_partOf ho hp (h b (List.mem_cons_self ..))
    obtain ⟨hok, hgrown, hrest, hold⟩ := ih hpart fun b' hb' => h b' (List.mem_cons_of_mem _ hb')
    rw [load, hq]
    refine ⟨hok, hkept.trans hgrown, fun b' hb' => ?_, hold⟩
    rcases List.mem_cons.1 hb' with rfl | hb'
    · exact hgrown hbound
    · exact hrest b' hb'

end HubFederation.PortPool
