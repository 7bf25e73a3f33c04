import HubFederation.Proofs.Ports.Moves

/-!
# Bindings are restored

The bindings of a pool, registered in a new one, make it hand out the same ports. The order does not
matter, nor which ports the new pool hands out: a binding is kept whether or not its port is among
them, and a port that is bound is not met by a search.

* `portOf?_run_of_undisturbed`: who has a port keeps it while others come and go.
* `load_restores`: the ports of a pool, whatever was done to it, after they were read back.
-/
namespace HubFederation.PortPool

variable {p q : PortPool} {peer : ExportedPort} {port : Port}

/-- The peers whose ports a move may change. Who asks for a port keeps the one it has. -/
def Move.disturbs : Move → List ExportedPort
  | .get _ => []
  | .release peer | .register peer _ => [peer]
  | .load bindings => bindings.map (·.1)

theorem get_of_portOf? (h : p.portOf? peer = some port) : p.get peer = .ok (port, p) := by
  unfold get
  rw [h]

theorem get_eq_error {e : PortError} (h : p.get peer = .error e) :
    e = .exhausted p.start p.stop := by
  unfold get at h
  split at h
  · cases h
  · split at h
    · cases h
    · cases h
      rfl

/-- Nobody is handed the port of another peer. -/
theorem ne_of_get (hp : p.OneToOne) (hg : p.get peer = .ok (port, q)) {peer' : ExportedPort}
    {port' : Port} (hne : peer' ≠ peer) (hbound : p.portOf? peer' = some port') : port' ≠ port := by
  rintro rfl
  have hother := (hp peer' port').1 hbound
  rcases get_cases hg with ⟨hport, -⟩ | ⟨-, hfree, -⟩
  · have hown := (hp peer port').1 hport
    exact hne (Option.some_inj.1 (hother.symm.trans hown))
  · rw [peerOf?_firstFree hfree] at hother
    cases hother

theorem portOf?_step_of_undisturbed {m : Move} (hport : p.portOf? peer = some port)
    (h : peer ∉ m.disturbs) : (p.step m).portOf? peer = some port := by
  cases m with
  | get peer' =>
    by_cases he : peer = peer'
    · subst he
      rw [step, get_of_portOf? hport]
      exact hport
    · rw [portOf?_step_of_not_mem (fun hmem => he (List.mem_singleton.1 hmem)), hport]
  | release _ => rw [portOf?_step_of_not_mem h, hport]
  | register _ _ => rw [portOf?_step_of_not_mem h, hport]
  | load _ => rw [portOf?_step_of_not_mem h, hport]

/-- A peer keeps its port while moves are about others or only ask for ports. -/
theorem portOf?_run_of_undisturbed {ms : List Move} (hport : p.portOf? peer = some port)
    (h : ∀ m ∈ ms, peer ∉ m.disturbs) : (p.run ms).portOf? peer = some port := by
  induction ms generalizing p with
  | nil => exact hport
  | cons m ms ih =>
    have hnext := portOf?_step_of_undisturbed hport (h m (List.mem_cons_self ..))
    exact ih hnext fun m' hm' => h m' (List.mem_cons_of_mem _ hm')

/-- The bindings of a pool, whatever was done to it, can be loaded in any order into a new pool of
any range. From then on each of their peers has its port and is handed that one, as long as it is
neither given back nor registered anew, whatever else is done to the pool; and no other peer is
handed one of these ports. -/
theorem load_restores (start count start' count' : Port) (ms : List Move)
    {bindings : List (ExportedPort × Port)}
    (hb : bindings.Perm ((ofCount start count).run ms).bound.ports.entries)
    (later : List Move) (hl : ∀ m ∈ later, ∀ b ∈ bindings, b.1 ∉ m.disturbs) :
    ((ofCount start' count').load bindings).2 = .ok () ∧
    let r := ((ofCount start' count').load bindings).1.run later
    (∀ b ∈ bindings, r.portOf? b.1 = some b.2 ∧ r.get b.1 = .ok (b.2, r)) ∧
    ∀ peer ∉ bindings.map (·.1),
      (∀ port q, r.get peer = .ok (port, q) → ∀ b ∈ bindings, b.2 ≠ port) ∧
      ∀ e, r.get peer = .error e → e = .exhausted start' (ofCount start' count').stop := by
  have hold := sound_run (sound_ofCount start count) ms
  have hbound : ∀ b ∈ bindings, ((ofCount start count).run ms).portOf? b.1 = some b.2 :=
    fun b hmem => SortedMap.mem_entries_iff.1 (hb.mem_iff.1 hmem)
  obtain ⟨hok, -, hread, -⟩ := load_of_partOf hold.oneToOne bindings
    (partOf_of_unbound (p := ofCount start' count') rfl _) hbound
  refine ⟨hok, ?_⟩
  intro r
  have hsound : r.Sound := sound_run ((sound_ofCount start' count').load bindings) later
  have hrange : (ofCount start' count').SameRange r :=
    (sameRange_step (ofCount start' count') (.load bindings)).trans (sameRange_run _ later)
  have hkept : ∀ b ∈ bindings, r.portOf? b.1 = some b.2 := fun b hmem =>
    portOf?_run_of_undisturbed (hread b hmem) fun m hm => hl m hm b hmem
  refine ⟨fun b hmem => ⟨hkept b hmem, get_of_portOf? (hkept b hmem)⟩, fun peer hnew => ⟨?_, ?_⟩⟩
  · intro port q hg b hmem
    refine ne_of_get hsound.oneToOne hg (fun he => hnew ?_) (hkept b hmem)
    exact List.mem_map.2 ⟨b, hmem, he⟩
  · intro e he
    rw [get_eq_error he, hrange.1, hrange.2]
    rfl

/-- An exported port of one service. -/
def webPort (port : Port) : ExportedPort := ⟨"east", "shop", "web", port⟩

/-- A pool that gave a port back, took one that it does not hand out and went round. -/
def roundabout : List Move :=
  [.get (webPort 1), .get (webPort 2), .register (webPort 3) 7, .release (webPort 1),
    .get (webPort 4), .get (webPort 5)]

/-- Its bindings are loaded from the last to the first, into a pool where two of the three ports lie
outside, and a new peer gets the port that lies before them. -/
theorem load_restores_roundabout :
    let bindings := [(webPort 5, 100), (webPort 4, 102), (webPort 3, 7), (webPort 2, 101)]
    bindings.Perm ((ofCount 100 3).run roundabout).bound.ports.entries ∧
    ((ofCount 99 3).load bindings).2 = .ok () ∧
    let r := ((ofCount 99 3).load bindings).1.run [.get (webPort 6)]
    (∀ b ∈ bindings, r.portOf? b.1 = some b.2 ∧ r.get b.1 = .ok (b.2, r)) ∧
    r.portOf? (webPort 6) = some 99 ∧ r.get (webPort 7) = .error (.exhausted 99 102) := by
  have hb : [(webPort 5, 100), (webPort 4, 102), (webPort 3, 7), (webPort 2, 101)].Perm
      ((ofCount 100 3).run roundabout).bound.ports.entries := by decide +kernel
  obtain ⟨hok, hbound, hothers⟩ := load_restores 100 3 99 3 roundabout hb
    [.get (webPort 6)] (by decide +kernel)
  obtain ⟨-, hexhausted⟩ := hothers (webPort 7) (by decide +kernel)
  refine ⟨hb, hok, hbound, by decide +kernel, ?_⟩
  have hnone : ((((ofCount 99 3).load [(webPort 5, 100), (webPort 4, 102), (webPort 3, 7),
      (webPort 2, 101)]).1.run [.get (webPort 6)]).get (webPort 7)).toOption.isNone = true := by
    decide +kernel
  cases hg : PortPool.get _ (webPort 7) with
  | ok r =>
    rw [hg] at hnone
    cases hnone
  | error e => rw [hexhausted e hg]; rfl

end HubFederation.PortPool
