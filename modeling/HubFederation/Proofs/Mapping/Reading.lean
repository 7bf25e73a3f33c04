import HubFederation.Proofs.Mapping.Phases

/-!
# Reading hubs

Reading a hub takes ConfigMaps into the cache that are on the hub and carry the labels of
the pair. It may register bind ports of the importing hub and changes nothing else.

* `reads_seed`: what reading the hubs of a way comes to.
* `steps_sync`, `steps_teardown`: what a controller does to bind ports, it does before it writes.
-/
namespace HubFederation

/-- `c'` is `c` with some of the ConfigMaps taken in that are on the hubs and carry `labels`. -/
def Resources.Adopts (labels : Labels) (hubs c c' : Resources) : Prop :=
  ∀ hub name, c'.get? hub name = c.get? hub name ∨
    ∃ found, hubs.get? hub found.key = some found ∧ labels.selects found.labelSet ∧
      found.normalize.key = name ∧ c'.get? hub name = some found.normalize

theorem Resources.Adopts.refl {labels : Labels} {hubs c : Resources} : Adopts labels hubs c c :=
  fun _ _ => .inl rfl

theorem Resources.Adopts.trans {labels : Labels} {hubs c c' c'' : Resources}
    (h : Adopts labels hubs c c') (h' : Adopts labels hubs c' c'') : Adopts labels hubs c c'' := by
  intro hub name
  rcases h' hub name with he | hfound
  · rw [he]; exact h hub name
  · exact .inr hfound

/-- ConfigMaps that are on a hub are taken in. -/
theorem Resources.adopts_foldl {labels : Labels} {hubs : Resources} (c : Resources) {hub : String}
    (cms : List ConfigMap)
    (h : ∀ cm ∈ cms, hubs.get? hub cm.key = some cm ∧ labels.selects cm.labelSet) :
    Adopts labels hubs c (cms.foldl (fun c cm => c.insert hub cm.normalize) c) := by
  refine List.foldlRecOn _ _ .refl fun c' hc cm hcm => hc.trans fun hub' name => ?_
  obtain ⟨hf, hl⟩ := h cm hcm
  rw [get?_insert]
  split
  next h => obtain ⟨rfl, rfl⟩ := h; exact .inr ⟨cm, hf, hl, rfl, rfl⟩
  · exact .inl rfl

namespace Mapping

/-- `m'` and `w'` came of reading hubs. -/
structure Reads (m : Mapping) (w : World) (m' : Mapping) (w' : World) : Prop where
  mapping : m' = { m with cache := m'.cache, seeded := m'.seeded }
  fleet : w'.fleet = { w.fleet with ports := w'.fleet.ports }
  cache : Resources.Adopts m.labels w.fleet.configMaps m.cache m'.cache
  used : (w.pool m.importing).Used → (w'.pool m.importing).Used

theorem Reads.refl (m : Mapping) (w : World) : Reads m w m w := ⟨rfl, rfl, .refl, id⟩

theorem Reads.trans {m m' m'' : Mapping} {w w' w'' : World} (h : Reads m w m' w')
    (h' : Reads m' w' m'' w'') : Reads m w m'' w'' := by
  refine ⟨?_, ?_, h.cache.trans ?_, fun hu => ?_⟩
  · rw [h'.mapping, h.mapping]
  · rw [h'.fleet, h.fleet]
  · have hcache := h'.cache
    rwa [h.fleet, show m'.labels = m.labels by rw [h.mapping]; rfl] at hcache
  · have hused := h'.used
    rw [show m'.importing = m.importing by rw [h.mapping]] at hused
    exact hused (h.used hu)

theorem reads_seedHub (m : Mapping) (w : World) (hub : String) :
    Reads m w (seedHub (m, w) hub).1 (seedHub (m, w) hub).2 := by
  have hprepares := (m.steps_seedHub w hub).prepares
  refine ⟨m.mapping_seedHub w hub, hprepares.fleet, ?_, hprepares.used⟩
  rcases m.seedHub_cases w hub with ⟨-, he⟩ | ⟨-, he⟩ | ⟨-, -, he⟩
  · rw [he]
    exact .refl
  · rw [he]
    exact .refl
  · rw [he]
    refine Resources.adopts_foldl m.cache (w.fleet.list hub m.labels) fun cm hcm => ?_
    obtain ⟨hcm, hl⟩ := List.mem_filter.1 hcm
    exact ⟨Fleet.mem_configMapsOf.1 hcm, hl⟩

theorem reads_seed (way : List String) (m : Mapping) (w : World) :
    Reads m w (m.seed w way).1 (m.seed w way).2 := by
  induction way generalizing m w with
  | nil => exact .refl m w
  | cons hub rest ih =>
    exact (reads_seedHub m w hub).trans (ih (seedHub (m, w) hub).1 (seedHub (m, w) hub).2)

theorem reads_reading (m : Mapping) (w : World) : Reads m w (m.reading w).1 (m.reading w).2 := by
  have hcounted : Reads m w m (w.count (·.synced m.pair)) := ⟨rfl, rfl, .refl, id⟩
  exact hcounted.trans (reads_seed (m.way w) m (w.count (·.synced m.pair)))

theorem steps_reading (m : Mapping) (w : World) :
    Steps m.pair (Step.Reads m.pair w.fleet) w (m.reading w).2 :=
  (Steps.single (s := .count (·.synced m.pair)) trivial w).trans
    (steps_seed (m.way w) m (w.count (·.synced m.pair)))

/-- Reading hubs leaves the importing hub and the routes alone. -/
theorem importing_reading (m : Mapping) (w : World) :
    (m.reading w).1.importing = m.importing ∧ (m.reading w).1.knownRoutes = m.knownRoutes := by
  rw [(reads_reading m w).mapping]
  exact ⟨rfl, rfl⟩

/-- Reading hubs does not change what a route publishes. -/
theorem publishes_reading (m : Mapping) (w : World) (route : Route) :
    (m.reading w).1.publishes (m.reading w).2.fleet route = m.publishes w.fleet route := by
  unfold publishes
  rw [(reads_reading m w).fleet, (reads_reading m w).mapping]
  rfl

/-! ## All that comes before writing -/

/-- One of the routes publishes the peer. -/
def Publishes (m : Mapping) (f : Fleet) (peer : ExportedPort) : Prop :=
  ∃ e ∈ m.knownRoutes, peer ∈ m.publishes f e.2

/-- A controller reads hubs, and renders routes that publish these peers. -/
def Takes (m : Mapping) (f : Fleet) (asked : ExportedPort → Prop) (s : Step) : Prop :=
  s.Reads m.pair f ∨ s.Renders asked

theorem steps_rendering (m : Mapping) (w : World) :
    Steps m.pair (m.Takes w.fleet (m.Publishes w.fleet)) w (m.rendering w).world := by
  have hread : Steps m.pair (m.Takes w.fleet (m.Publishes w.fleet)) w (m.reading w).2 :=
    (m.steps_reading w).mono fun _ => .inl
  have hrender : Steps (m.reading w).1.pair (m.Takes w.fleet (m.Publishes w.fleet))
      (m.reading w).2 (m.rendering w).world := by
    refine Steps.mono ((m.reading w).1.steps_renderAll _ _ _ fun e he peer hpeer => ?_)
      fun _ => .inr
    rw [(importing_reading m w).2] at he
    rw [publishes_reading] at hpeer
    exact ⟨e, he, hpeer⟩
  rw [(reads_reading m w).mapping] at hrender
  exact hread.trans hrender

/-- Rendering starts from a controller that has read the hubs, and leaves them alone. -/
theorem fleet_rendering (m : Mapping) (w : World) :
    (m.rendering w).world.fleet = { w.fleet with ports := (m.rendering w).world.fleet.ports } :=
  (m.steps_rendering w).prepares.fleet

/-! ## A whole synchronization, and a teardown -/

/-- A controller remains what it is but for what it remembers. -/
theorem mapping_sync (m : Mapping) (w : World) :
    (m.sync w).1 = { m with cache := (m.sync w).1.cache, seeded := (m.sync w).1.seeded } := by
  by_cases hc : m.Converges w
  · rw [(sync_of_converges hc).1, (issued_converging m w).mapping, (reads_reading m w).mapping]
  · rcases sync_of_not_converges hc with ⟨hm, -, -⟩ | ⟨hm, -, -⟩
    · rw [hm]
    · rw [hm, (reads_reading m w).mapping]

/-- The hubs remain what they are but for bind ports and ConfigMaps. -/
theorem fleet_sync (m : Mapping) (w : World) :
    (m.sync w).2.fleet = { w.fleet with
      ports := (m.sync w).2.fleet.ports, configMaps := (m.sync w).2.fleet.configMaps } := by
  by_cases hc : m.Converges w
  · rw [(sync_of_converges hc).2.1, (issued_converging m w).fleet, fleet_rendering]
  · rcases sync_of_not_converges hc with ⟨-, hf, -⟩ | ⟨-, hf, -⟩
    · rw [hf]
    · rw [hf, fleet_rendering]

/-- Writing leaves bind ports alone. -/
theorem steps_sync (m : Mapping) (w : World) : ∃ w',
    Steps m.pair (m.Takes w.fleet (m.Publishes w.fleet)) w w' ∧
      (m.sync w).2.fleet.ports = w'.fleet.ports := by
  by_cases hc : m.Converges w
  · refine ⟨_, m.steps_rendering w, ?_⟩
    rw [(sync_of_converges hc).2.1, (issued_converging m w).fleet]
  · rcases sync_of_not_converges hc with ⟨-, hf, -⟩ | ⟨-, hf, -⟩
    · exact ⟨w, .refl w, congrArg Fleet.ports hf⟩
    · exact ⟨_, m.steps_rendering w, congrArg Fleet.ports hf⟩

/-- Tearing down takes away what is cached once the hubs are read. -/
theorem issued_teardown (m : Mapping) (w : World) :
    ∃ failed, Issued ⟨(m.seed w (m.way w)).1, (m.seed w (m.way w)).2, false⟩
      ((m.seed w (m.way w)).1.cache.diff ∅) ⟨(m.teardown w).1, (m.teardown w).2, failed⟩ :=
  ⟨_, issued_deletes ((m.seed w (m.way w)).1.cache.toDelete ∅) _⟩

theorem fleet_teardown (m : Mapping) (w : World) :
    (m.teardown w).2.fleet = { w.fleet with
      ports := (m.teardown w).2.fleet.ports, configMaps := (m.teardown w).2.fleet.configMaps } := by
  obtain ⟨failed, h⟩ := issued_teardown m w
  have hfleet := h.fleet
  simp only at hfleet
  rw [hfleet, (reads_seed (m.way w) m w).fleet]

theorem steps_teardown (m : Mapping) (w : World) : ∃ w',
    Steps m.pair (Step.Reads m.pair w.fleet) w w' ∧
      (m.teardown w).2.fleet.ports = w'.fleet.ports := by
  obtain ⟨failed, h⟩ := issued_teardown m w
  have hfleet := h.fleet
  simp only at hfleet
  refine ⟨_, steps_seed (m.way w) m w, ?_⟩
  rw [hfleet]

end Mapping

end HubFederation
