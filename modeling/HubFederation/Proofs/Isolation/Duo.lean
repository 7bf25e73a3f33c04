import HubFederation.Proofs.Isolation.Ledger

/-!
# Runs of two controllers

Two controllers look after different pairs of the same hubs. In any order they are given
routes, synchronize and are closed, while hubs come and go and bind ports change hands.
Hubs that answer every call leave a controller two things to do, which a ledger knows.

* `ledger_step`: a move adopts what is on the hubs, and settles on what was rendered or
  does not touch the hubs.
-/
namespace HubFederation

namespace Mapping

/-- A synchronization gets to write, and every call works. -/
def succeeds (m : Mapping) (w : World) : Bool :=
  w.fleet.isReady m.exporting && w.fleet.isReady m.importing && !(m.rendering w).frozen &&
    !(m.converging w).failed

/-- Where hubs answer every call, a synchronization adopts what it reads. If it gets to write,
it succeeds, and it leaves the cache and the hubs with what it rendered. -/
theorem sync_cases {m : Mapping} {w : World} (hserving : w.fleet.writeFails = fun _ _ => false) :
    ∃ c, Resources.Adopts m.labels w.fleet.configMaps m.cache c ∧
      ((m.succeeds w = false ∧ (m.sync w).1.cache = c ∧
          (m.sync w).2.fleet.configMaps = w.fleet.configMaps) ∨
        (m.succeeds w = true ∧ (m.sync w).1.cache = (m.rendering w).resources ∧
          (m.sync w).2.fleet.configMaps = (c.diff (m.rendering w).resources).foldl
            (Call.runUnless fun _ _ => false) w.fleet.configMaps)) := by
  have hreads := reads_reading m w
  unfold succeeds
  cases hready : w.fleet.isReady m.exporting && w.fleet.isReady m.importing with
  | false =>
    obtain ⟨hmapping, hfleet⟩ := sync_of_not_ready hready
    exact ⟨m.cache, .refl, .inl ⟨rfl, by rw [hmapping], by rw [hfleet]⟩⟩
  | true =>
    refine ⟨(m.reading w).1.cache, hreads.cache, ?_⟩
    cases hfrozen : (m.rendering w).frozen with
    | true =>
      obtain ⟨hmapping, hfleet⟩ := sync_of_frozen hready hfrozen
      exact .inl ⟨rfl, by rw [hmapping], by rw [hfleet, fleet_rendering]⟩
    | false =>
      rw [Bool.and_eq_true] at hready
      obtain ⟨hmapping, hfleet, -⟩ := sync_of_converges ⟨hready.1, hready.2, hfrozen⟩
      have hissued := issued_converging m w
      have hfails : (m.rendering w).world.fleet.writeFails = fun _ _ => false := by
        rw [fleet_rendering]; exact hserving
      refine .inr ⟨?_, ?_, ?_⟩
      · rw [hissued.failed, hfails]; simp
      · rw [hmapping, hissued.mapping, hfails]
        refine Resources.ext_get? fun hub name => ?_
        rw [Resources.get?_run_diff]
        simp
      · rw [hfleet, hissued.fleet, hfails, fleet_rendering]

end Mapping

/-- A controller, and what its last successful synchronization rendered. -/
structure Party where
  mapping : Mapping
  placed : Resources

/-- Two controllers in one world. -/
structure Duo where
  world : World
  party : Bool → Party

namespace Duo

inductive Move where
  | sync (i : Bool)
  /-- A controller takes away what its pair owns. A new one may look after the pair later. -/
  | close (i : Bool)
  | assign (i : Bool) (routes : List Route)
  | ready (hubs : SortedSet String)
  | ports (pools : PortPools)

/-- Another world, with another controller at `i`. -/
def set (s : Duo) (w : World) (i : Bool) (p : Party) : Duo := ⟨w, Function.update s.party i p⟩

def step (s : Duo) : Move → Duo
  | .sync i =>
    let m := (s.party i).mapping
    let placed :=
      if m.succeeds s.world then (m.rendering s.world).resources else (s.party i).placed
    s.set (m.sync s.world).2 i ⟨(m.sync s.world).1, placed⟩
  | .close i =>
    let m := (s.party i).mapping
    s.set (m.teardown s.world).2 i ⟨.ofPair m.exporting m.importing m.identityFile, ∅⟩
  | .assign i routes =>
    s.set s.world i ⟨{ (s.party i).mapping with routes }, (s.party i).placed⟩
  | .ready hubs =>
    { s with world := { s.world with fleet := { s.world.fleet with ready := hubs } } }
  | .ports pools => { s with world := s.world.setPorts pools }

def run (s : Duo) (moves : List Move) : Duo := moves.foldl step s

/-- What the controllers have to do with each other. -/
def ledger (s : Duo) : Ledger :=
  ⟨s.world.fleet.configMaps, fun i => (s.party i).mapping.cache, fun i => (s.party i).placed⟩

/-- The route names that a controller is given are its own. -/
def Move.Allowed (owner : String → Bool) : Move → Prop
  | .assign i routes => ∀ route ∈ routes, owner route.name = i
  | _ => True

section
variable (pairs : Bool → String × String) (owner : String → Bool)

/-- What stays as it is: the pairs, whose routes are whose, and that hubs answer every call. -/
structure Sound (s : Duo) : Prop where
  pair : ∀ i, (s.party i).mapping.pair = pairs i
  owned : ∀ i, ∀ route ∈ (s.party i).mapping.routes, owner route.name = i
  serving : s.world.fleet.failingHubs = ∅ ∧ s.world.fleet.failingNames = ∅

end

variable {pairs : Bool → String × String} {owner : String → Bool} {s : Duo}

theorem Sound.writeFails_eq (h : Sound pairs owner s) :
    s.world.fleet.writeFails = fun _ _ => false := by
  funext hub name
  unfold Fleet.writeFails
  rw [h.serving.1, h.serving.2]
  rfl

theorem Sound.labels_eq (h : Sound pairs owner s) (i : Bool) :
    (s.party i).mapping.labels = Ledger.labels pairs i := by
  unfold Ledger.labels
  rw [← h.pair]
  rfl

/-- What stays as it is stays so with another controller at `i` that is like the one before. -/
theorem Sound.set (h : Sound pairs owner s) {w : World} {i : Bool} {p : Party}
    (hpair : p.mapping.pair = pairs i) (howned : ∀ route ∈ p.mapping.routes, owner route.name = i)
    (hserving : w.fleet.failingHubs = ∅ ∧ w.fleet.failingNames = ∅) :
    Sound pairs owner (s.set w i p) where
  pair := (Function.forall_update_iff s.party fun j p => p.mapping.pair = pairs j).2
    ⟨hpair, fun j _ => h.pair j⟩
  owned := (Function.forall_update_iff s.party fun j p =>
    ∀ route ∈ p.mapping.routes, owner route.name = j).2 ⟨howned, fun j _ => h.owned j⟩
  serving := hserving

theorem sound_step (h : Sound pairs owner s) {m : Move} (hm : m.Allowed owner) :
    Sound pairs owner (s.step m) := by
  cases m with
  | sync i =>
    refine h.set ?_ ?_ ?_
    · rw [Mapping.mapping_sync]; exact h.pair i
    · rw [Mapping.mapping_sync]; exact h.owned i
    · rw [Mapping.fleet_sync]; exact h.serving
  | close i =>
    refine h.set (h.pair i) (fun _ hr => nomatch hr) ?_
    rw [Mapping.fleet_teardown]
    exact h.serving
  | assign i routes => exact h.set (h.pair i) hm h.serving
  | ready hubs => exact ⟨h.pair, h.owned, h.serving⟩
  | ports pools => exact ⟨h.pair, h.owned, h.serving⟩

/-! ## What a move does to the ledger -/

theorem ledger_set (s : Duo) (w : World) (i : Bool) (p : Party) :
    (s.set w i p).ledger = ⟨w.fleet.configMaps,
      Function.update s.ledger.cache i p.mapping.cache,
      Function.update s.ledger.placed i p.placed⟩ := by
  unfold ledger set
  congr 1
  · exact Function.comp_update (fun p : Party => p.mapping.cache) s.party i p
  · exact Function.comp_update Party.placed s.party i p

/-- A synchronization adopts what it reads. If it succeeds, it settles on what it rendered. -/
theorem ledger_sync (h : Sound pairs owner s) (i : Bool) :
    ∃ c, Resources.Adopts (Ledger.labels pairs i) s.ledger.hubs (s.ledger.cache i) c ∧
      ((s.step (.sync i)).ledger = s.ledger.adopt i c ∨
        ∃ next, next.All (RenderedFor (pairs i) (owner · = i)) ∧
          (s.step (.sync i)).ledger = (s.ledger.adopt i c).settle i next) := by
  obtain ⟨c, hadopts, hcases⟩ := Mapping.sync_cases (m := (s.party i).mapping) h.writeFails_eq
  rw [h.labels_eq] at hadopts
  refine ⟨c, hadopts, ?_⟩
  unfold step
  rw [ledger_set]
  rcases hcases with ⟨hs, hcache, hhubs⟩ | ⟨hs, hcache, hhubs⟩
  · refine .inl ?_
    simp only [hs, hcache, hhubs, Bool.false_eq_true, if_false]
    rw [show (s.party i).placed = s.ledger.placed i from rfl, Function.update_eq_self]
    rfl
  · refine .inr ⟨((s.party i).mapping.rendering s.world).resources, ?_, ?_⟩
    · have hmapping := ((s.party i).mapping.reads_reading s.world).mapping
      have hall := ((s.party i).mapping.reading s.world).1.all_renderedFor
        ((s.party i).mapping.way s.world)
        (((s.party i).mapping.readiness s.world).withWay ((s.party i).mapping.way s.world))
        ((s.party i).mapping.reading s.world).2 (owner · = i)
        (by rw [hmapping]; exact h.owned i)
      rwa [show ((s.party i).mapping.reading s.world).1.pair = pairs i by
        rw [hmapping]; exact h.pair i] at hall
    · rw [Ledger.settle_adopt]
      simp only [hs, hcache, hhubs, if_true]
      rfl

/-- A controller that is closed adopts what it reads and settles on nothing. -/
theorem ledger_close (h : Sound pairs owner s) (i : Bool) :
    ∃ c, Resources.Adopts (Ledger.labels pairs i) s.ledger.hubs (s.ledger.cache i) c ∧
      (s.step (.close i)).ledger = (s.ledger.adopt i c).settle i ∅ := by
  have hreads := Mapping.reads_seed ((s.party i).mapping.way s.world) (s.party i).mapping s.world
  obtain ⟨failed, hissued⟩ := (s.party i).mapping.issued_teardown s.world
  have hhubs : ((s.party i).mapping.teardown s.world).2.fleet.configMaps = _ :=
    congrArg Fleet.configMaps hissued.fleet
  have hfails : ((s.party i).mapping.seed s.world
      ((s.party i).mapping.way s.world)).2.fleet.writeFails = fun _ _ => false := by
    rw [hreads.fleet]; exact h.writeFails_eq
  simp only [hfails] at hhubs
  refine ⟨_, h.labels_eq i ▸ hreads.cache, ?_⟩
  unfold step
  rw [ledger_set, Ledger.settle_adopt]
  simp only [hhubs]
  rw [hreads.fleet]
  rfl

/-- A move adopts what is on the hubs. It settles on what was rendered, or leaves the hubs as
they are. -/
theorem ledger_step (h : Sound pairs owner s) (m : Move) :
    ∃ i c, Resources.Adopts (Ledger.labels pairs i) s.ledger.hubs (s.ledger.cache i) c ∧
      ((s.step m).ledger = s.ledger.adopt i c ∨
        ∃ next, next.All (RenderedFor (pairs i) (owner · = i)) ∧
          (s.step m).ledger = (s.ledger.adopt i c).settle i next) := by
  have hsame (i : Bool) : s.ledger = s.ledger.adopt i (s.ledger.cache i) :=
    (s.ledger.adopt_cache i).symm
  cases m with
  | sync i => exact ⟨i, ledger_sync h i⟩
  | close i =>
    obtain ⟨c, ha, hl⟩ := ledger_close h i
    exact ⟨i, c, ha, .inr ⟨∅, Resources.all_empty, hl⟩⟩
  | assign i routes =>
    refine ⟨i, s.ledger.cache i, .refl, .inl ?_⟩
    unfold step
    rw [ledger_set]
    change (⟨_, _, Function.update s.ledger.placed i (s.ledger.placed i)⟩ : Ledger) = _
    rw [Function.update_eq_self]
    rfl
  | ready hubs => exact ⟨false, s.ledger.cache false, .refl, .inl (hsame false)⟩
  | ports pools => exact ⟨false, s.ledger.cache false, .refl, .inl (hsame false)⟩

end Duo

end HubFederation
