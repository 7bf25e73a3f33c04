import HubFederation.Proofs.Ports.Binding

/-!
# What can become of a pool

A pool starts without bindings and is then asked for ports, given ports back and told of ports
that are in use, in any order. `step` is what one of these moves makes of a pool, `run` what a
history of them does.

* `sound_step`, `sound_run`: the two sides of a pool tell the same, and the cursor stays among the
  ports that are handed out.
* `portOf?_step_of_not_mem`: a move is about its own peers only.
* `load_registers`: a batch is registered up to its first conflict.
* `run_consistent`: what holds after every history.
-/
namespace HubFederation.PortPool

/-! ## Moves -/

inductive Move where
  | get (peer : ExportedPort)
  | release (peer : ExportedPort)
  | register (peer : ExportedPort) (port : Port)
  | load (bindings : List (ExportedPort × Port))

/-- The peers that a move is about. -/
def Move.peers : Move → List ExportedPort
  | .get peer | .release peer | .register peer _ => [peer]
  | .load bindings => bindings.map (·.1)

/-- Where a port cannot be got or registered, the pool stays as it is. -/
def step (p : PortPool) : Move → PortPool
  | .get peer =>
    match p.get peer with
    | .ok (_, q) => q
    | .error _ => p
  | .release peer => p.release peer
  | .register peer port =>
    match p.register peer port with
    | .ok q => q
    | .error _ => p
  | .load bindings => (p.load bindings).1

def run (p : PortPool) (ms : List Move) : PortPool := ms.foldl step p

/-- Bindings that can be registered one after the other, which makes `q` of `p`. -/
def Registers (p : PortPool) (bindings : List (ExportedPort × Port)) (q : PortPool) : Prop :=
  bindings.foldlM (fun p b => p.register b.1 b.2) p = .ok q

variable {p q : PortPool} {peer : ExportedPort} {port : Port}

/-! ## The circle of ports -/

theorem holds_iff : p.holds port = true ↔
    p.start.toNat ≤ port.toNat ∧ port.toNat < p.stop.toNat := by
  simp [holds, UInt16.le_iff_toNat_le, UInt16.lt_iff_toNat_lt]

theorem toNat_next (h : p.holds port = true) : (p.next port).toNat =
    if port.toNat + 1 < p.stop.toNat then port.toNat + 1 else p.start.toNat := by
  rw [holds_iff] at h
  have hstop := Port.toNat_le p.stop
  unfold next
  split
  · rw [if_neg (by omega)]
  · -- There is a port behind this one, so that its number does not overflow.
    rw [if_pos (by omega), UInt16.toNat_add, UInt16.toNat_one]
    omega

/-- The circle does not leave the ports that are handed out. -/
theorem holds_next (h : p.holds port = true) : p.holds (p.next port) = true := by
  have hnext := toNat_next h
  rw [holds_iff] at h ⊢
  split at hnext <;> omega

theorem holds_firstFree {n : Nat} {start free : Port} (hs : p.holds start = true)
    (h : p.firstFree n start = some free) : p.holds free = true := by
  induction n generalizing start with
  | zero => cases h
  | succ n ih =>
    rw [firstFree] at h
    split at h
    · cases h
      exact hs
    · exact ih (holds_next hs) h

/-! ## What moves preserve -/

/-- The two sides of a pool tell the same, and a search begins among the ports that are handed out,
if there are any. -/
structure Sound (p : PortPool) : Prop where
  oneToOne : p.OneToOne
  cursor : p.start < p.stop → p.holds p.cursor = true

theorem sound_ofCount (start count : Port) : (ofCount start count).Sound := by
  refine ⟨oneToOne_of_unbound rfl, fun hsome => ?_⟩
  rw [holds_iff]
  exact ⟨Nat.le_refl _, UInt16.lt_iff_toNat_lt.1 hsome⟩

theorem Sound.get (h : p.Sound) (hg : p.get peer = .ok (port, q)) : q.Sound := by
  refine ⟨oneToOne_get h.oneToOne hg, ?_⟩
  rcases get_cases hg with ⟨-, rfl⟩ | ⟨-, hfree, rfl⟩
  · exact h.cursor
  · intro hsome
    have hheld := holds_firstFree (h.cursor hsome) hfree
    exact (holds_next hheld : p.holds (p.next port) = true)

theorem Sound.register (h : p.Sound) (hr : p.register peer port = .ok q) : q.Sound := by
  refine ⟨oneToOne_register h.oneToOne hr, ?_⟩
  rcases register_cases hr with ⟨-, rfl⟩ | ⟨-, rfl⟩
  · exact h.cursor
  · intro hsome
    change p.holds (if p.holds port && p.cursor ≤ port then p.next port else p.cursor) = true
    split
    next hahead =>
      rw [Bool.and_eq_true] at hahead
      exact holds_next hahead.1
    · exact h.cursor hsome

theorem Sound.load (h : p.Sound) (bindings : List (ExportedPort × Port)) :
    (p.load bindings).1.Sound :=
  load_induction h fun _ _ hr hp => hp.register hr

theorem sound_step (h : p.Sound) (m : Move) : (p.step m).Sound := by
  cases m with
  | get peer =>
    rw [step]
    split
    next hg => exact h.get hg
    · exact h
  | release peer => exact ⟨h.oneToOne.release peer, h.cursor⟩
  | register peer port =>
    rw [step]
    split
    next hr => exact h.register hr
    · exact h
  | load bindings => exact h.load bindings

theorem sound_run (h : p.Sound) (ms : List Move) : (p.run ms).Sound := by
  induction ms generalizing p with
  | nil => exact h
  | cons m ms ih => exact ih (sound_step h m)

/-! ## What a move changes -/

/-- A pool hands out the same ports at all times. -/
def SameRange (p q : PortPool) : Prop := q.start = p.start ∧ q.stop = p.stop

theorem SameRange.trans {r : PortPool} (h : p.SameRange q) (h' : q.SameRange r) : p.SameRange r :=
  ⟨h'.1.trans h.1, h'.2.trans h.2⟩

theorem sameRange_get (h : p.get peer = .ok (port, q)) : p.SameRange q := by
  rcases get_cases h with ⟨-, rfl⟩ | ⟨-, -, rfl⟩
  · exact ⟨rfl, rfl⟩
  · exact ⟨rfl, rfl⟩

theorem sameRange_register (h : p.register peer port = .ok q) : p.SameRange q := by
  rcases register_cases h with ⟨-, rfl⟩ | ⟨-, rfl⟩
  · exact ⟨rfl, rfl⟩
  · exact ⟨rfl, rfl⟩

theorem sameRange_step (p : PortPool) (m : Move) : p.SameRange (p.step m) := by
  cases m with
  | get peer =>
    rw [step]
    split
    next hg => exact sameRange_get hg
    · exact ⟨rfl, rfl⟩
  | release peer => exact ⟨rfl, rfl⟩
  | register peer port =>
    rw [step]
    split
    next hr => exact sameRange_register hr
    · exact ⟨rfl, rfl⟩
  | load bindings =>
    exact load_induction (motive := p.SameRange) ⟨rfl, rfl⟩
      fun _ _ hr hp => hp.trans (sameRange_register hr)

theorem sameRange_run (p : PortPool) (ms : List Move) : p.SameRange (p.run ms) := by
  induction ms generalizing p with
  | nil => exact ⟨rfl, rfl⟩
  | cons m ms ih => exact (sameRange_step p m).trans (ih _)

theorem portOf?_load_of_not_mem {bindings : List (ExportedPort × Port)}
    (h : peer ∉ bindings.map (·.1)) : (p.load bindings).1.portOf? peer = p.portOf? peer :=
  load_induction (motive := fun q => q.portOf? peer = p.portOf? peer) rfl fun b hb hr hp =>
    (portOf?_register_of_ne hr fun he => h (List.mem_map.2 ⟨b, hb, he.symm⟩)).trans hp

/-- A move changes the port of no peer but its own. -/
theorem portOf?_step_of_not_mem {m : Move} (h : peer ∉ m.peers) :
    (p.step m).portOf? peer = p.portOf? peer := by
  cases m with
  | get peer' =>
    rw [step]
    split
    next hg => rw [portOf?_get hg, if_neg (List.ne_of_not_mem_cons h)]
    · rfl
  | release peer' =>
    exact (p.portOf?_release peer' peer).trans (if_neg (List.ne_of_not_mem_cons h))
  | register peer' port =>
    rw [step]
    split
    next hr => exact portOf?_register_of_ne hr (List.ne_of_not_mem_cons h)
    · rfl
  | load bindings => exact portOf?_load_of_not_mem h

/-! ## Conflicts -/

/-- A binding cannot be registered if and only if the port is another peer's. -/
theorem register_eq_error_iff {e : PortError} : p.register peer port = .error e ↔
    ∃ owner, p.peerOf? port = some owner ∧ owner ≠ peer ∧ e = .conflict port owner := by
  unfold register
  cases p.peerOf? port with
  | none => exact ⟨fun h => (nomatch h), fun ⟨_, h, _⟩ => (nomatch h)⟩
  | some owner =>
    simp only [Option.some_inj]
    constructor
    · intro h
      split at h
      · cases h
      next hne =>
        cases h
        exact ⟨owner, rfl, hne, rfl⟩
    · rintro ⟨_, rfl, hne, rfl⟩
      rw [if_neg hne]

/-- A batch is registered up to its first conflict. -/
theorem load_registers (p : PortPool) (bindings : List (ExportedPort × Port)) :
    ∃ done rest, bindings = done ++ rest ∧ p.Registers done (p.load bindings).1 ∧
      (rest = [] ∧ (p.load bindings).2 = .ok () ∨
        ∃ b rest' e, rest = b :: rest' ∧ (p.load bindings).1.register b.1 b.2 = .error e ∧
          (p.load bindings).2 = .error e) := by
  induction bindings generalizing p with
  | nil => exact ⟨[], [], rfl, rfl, .inl ⟨rfl, rfl⟩⟩
  | cons b bindings ih =>
    rw [PortPool.load]
    split
    next q hr =>
      obtain ⟨done, rest, rfl, hdone, hrest⟩ := ih q
      refine ⟨b :: done, rest, rfl, ?_, hrest⟩
      unfold Registers at hdone ⊢
      rw [List.foldlM_cons, hr]
      exact hdone
    next e hr => exact ⟨[], b :: bindings, rfl, rfl, .inr ⟨b, bindings, e, rfl, hr, rfl⟩⟩

/-! ## Histories -/

/-- Whatever is done to a pool, the ports of peers and the peers of ports are each other's inverse,
and the cursor is among the ports that are handed out, if there are any. The next move changes the
port of no peer but its own. A binding can be registered unless the port is another peer's, and the
pool then stays as it is: `register` returns no pool with an error, so that part holds by its type.
A batch is registered up to its first conflict. -/
theorem run_consistent (start count : Port) (ms : List Move) :
    let p := (ofCount start count).run ms
    (∀ peer port, p.portOf? peer = some port ↔ p.peerOf? port = some peer) ∧
    (p.start = start ∧ p.stop = (ofCount start count).stop ∧
      (p.start < p.stop → p.start ≤ p.cursor ∧ p.cursor < p.stop)) ∧
    (∀ m peer, peer ∉ m.peers → (p.step m).portOf? peer = p.portOf? peer) ∧
    (∀ peer port, (∀ q, p.register peer port = .ok q → q.portOf? peer = some port) ∧
      ∀ e, (p.register peer port = .error e ↔
          ∃ owner, p.peerOf? port = some owner ∧ owner ≠ peer ∧ e = .conflict port owner) ∧
        (p.register peer port = .error e → p.step (.register peer port) = p)) ∧
    ∀ bindings, ∃ done rest, bindings = done ++ rest ∧ p.Registers done (p.load bindings).1 ∧
      (rest = [] ∧ (p.load bindings).2 = .ok () ∨
        ∃ b rest' e, rest = b :: rest' ∧ (p.load bindings).1.register b.1 b.2 = .error e ∧
          (p.load bindings).2 = .error e) := by
  have hsound := sound_run (sound_ofCount start count) ms
  obtain ⟨hstart, hstop⟩ := sameRange_run (ofCount start count) ms
  refine ⟨hsound.oneToOne, ⟨hstart, hstop, fun hsome => ?_⟩, fun m peer => portOf?_step_of_not_mem,
    fun peer port => ⟨fun q hr => portOf?_register_self hr hsound.oneToOne,
      fun e => ⟨register_eq_error_iff, fun he => ?_⟩⟩, load_registers _⟩
  · have hcursor := holds_iff.1 (hsound.cursor hsome)
    exact ⟨UInt16.le_iff_toNat_le.2 hcursor.1, UInt16.lt_iff_toNat_lt.2 hcursor.2⟩
  · rw [step, he]

end HubFederation.PortPool
