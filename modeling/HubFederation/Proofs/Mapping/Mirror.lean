import HubFederation.Proofs.Mapping.Seeding
import HubFederation.Proofs.Render.Owned

/-!
# The cache mirrors the hubs

A controller trusts its cache. It may do so as long as nobody else touches ConfigMaps with the
labels of its pair: what is cached is on the hub as it is cached, and on a hub that was read
nothing with these labels is missing in the cache.

* `Mirror`: what the cache has to do with the hubs.
* `mirrors_seedHub`, `mirrors_issued`: reading a hub and writing to hubs keep it up, whichever calls
  fail.
* `mirrors_of_reached`: so it holds whenever a synchronization is over.
* `mirrors_hubs`: what this means for the hubs.
-/
namespace HubFederation

/-- Every ConfigMap on a hub goes by its name, and not by the stem of a name to be made. -/
def Resources.Named (hubs : Resources) : Prop :=
  ∀ hub name found, hubs.get? hub name = some found → found.normalize.key = name

/-- What a cache has to do with the hubs, of which `seeded` were read. -/
structure Mirror (labels : Labels) (hubs cache : Resources) (seeded : SortedSet String) : Prop where
  named : hubs.Named
  /-- What is cached is on its hub with the same name, labels and data. -/
  cached : ∀ hub name cm, cache.get? hub name = some cm →
    ∃ found, hubs.get? hub name = some found ∧ found.normalize = cm ∧
      labels.selects found.labelSet
  /-- On a hub that was read, everything that carries the labels is cached. -/
  seeded : ∀ hub, seeded.contains hub = true → ∀ name found, hubs.get? hub name = some found →
    labels.selects found.labelSet → cache.get? hub name = some found.normalize

namespace Mirror

variable {labels : Labels} {hubs cache : Resources} {seeded : SortedSet String}

theorem start (h : hubs.Named) : Mirror labels hubs ∅ ∅ :=
  ⟨h, fun _ _ _ hget => (nomatch hget), fun _ hget => (nomatch hget)⟩

/-- Where no ConfigMap with the labels is, nothing is cached. -/
theorem get?_eq_none (h : Mirror labels hubs cache seeded) {hub name : String}
    (hfree : ∀ found, hubs.get? hub name = some found → ¬ labels.selects found.labelSet) :
    cache.get? hub name = none := by
  refine Option.eq_none_iff_forall_ne_some.2 fun cm hcm => ?_
  obtain ⟨found, hf, -, hl⟩ := h.cached hub name cm hcm
  exact hfree found hf hl

/-- Hubs may change wherever nothing carries the labels. -/
theorem outside (h : Mirror labels hubs cache seeded) {hubs' : Resources} (hn : hubs'.Named)
    (hsame : ∀ hub name, hubs'.get? hub name ≠ hubs.get? hub name →
      (∀ found, hubs.get? hub name = some found → ¬ labels.selects found.labelSet) ∧
      ∀ found, hubs'.get? hub name = some found → ¬ labels.selects found.labelSet) :
    Mirror labels hubs' cache seeded := by
  refine ⟨hn, fun hub name cm hcm => ?_, fun hub hs name found hf hl => ?_⟩
  · obtain ⟨found, hf, hnorm, hl⟩ := h.cached hub name cm hcm
    by_cases he : hubs'.get? hub name = hubs.get? hub name
    · exact ⟨found, he.trans hf, hnorm, hl⟩
    · exact absurd hl ((hsame hub name he).1 found hf)
  · by_cases he : hubs'.get? hub name = hubs.get? hub name
    · exact h.seeded hub hs name found (he.symm.trans hf) hl
    · exact absurd hl ((hsame hub name he).2 found hf)

/-- Taking in ConfigMaps that are on a hub and carry the labels keeps the mirror. -/
theorem adopt (h : Mirror labels hubs cache seeded) {hub : String} (cms : List ConfigMap)
    (hcms : ∀ cm ∈ cms, hubs.get? hub cm.key = some cm ∧ labels.selects cm.labelSet)
    (hall : ∀ name found, hubs.get? hub name = some found → labels.selects found.labelSet →
      found ∈ cms) :
    Mirror labels hubs (cms.foldl (fun c cm => c.insert hub cm.normalize) cache)
      (seeded.add hub) := by
  have hkey (cm : ConfigMap) (hcm : cm ∈ cms) : cm.normalize.key = cm.key :=
    h.named hub cm.key cm (hcms cm hcm).1
  have hfold : cms.foldl (fun c cm => c.insert hub cm.normalize) cache =
      (cms.map fun cm => (hub, cm.normalize)).foldl (fun c e => c.insert e.1 e.2) cache := by
    rw [List.foldl_map]
  -- What was cached before or is taken in now: either way it is on the hub.
  have hget (hub' name : String) :
      ((cms.foldl (fun c cm => c.insert hub cm.normalize) cache).get? hub' name =
          cache.get? hub' name ∧ (hub' = hub → ∀ cm ∈ cms, cm.key ≠ name)) ∨
        ∃ cm ∈ cms, hub' = hub ∧ cm.key = name ∧
          (cms.foldl (fun c cm => c.insert hub cm.normalize) cache).get? hub' name =
            some cm.normalize := by
    rw [hfold]
    rcases Resources.get?_foldl_insert (cms.map fun cm => (hub, cm.normalize)) cache hub' name with
      ⟨he, hnone⟩ | ⟨e, hmem, hhub, hname, he⟩
    · refine .inl ⟨he, fun hhub cm hcm hname => ?_⟩
      refine hnone _ (List.mem_map_of_mem hcm) ⟨hhub.symm, ?_⟩
      rw [hkey cm hcm]
      exact hname
    · obtain ⟨cm, hcm, rfl⟩ := List.mem_map.1 hmem
      exact .inr ⟨cm, hcm, hhub.symm, (hkey cm hcm).symm.trans hname, he⟩
  refine ⟨h.named, fun hub' name cm hcm => ?_, fun hub' hs name found hf hl => ?_⟩
  · rcases hget hub' name with ⟨he, -⟩ | ⟨found, hfound, rfl, rfl, he⟩
    · exact h.cached hub' name cm (he.symm.trans hcm)
    · rw [he] at hcm
      obtain ⟨hf, hl⟩ := hcms found hfound
      exact ⟨found, hf, Option.some.inj hcm, hl⟩
  · rcases hget hub' name with ⟨he, hother⟩ | ⟨cm, hcm, rfl, rfl, he⟩
    · have hne : hub' ≠ hub := by
        intro hhub
        rw [hhub] at hf
        exact hother hhub found (hall name found hf hl) (Resources.key_of_get? hf)
      rw [he]
      refine h.seeded hub' ?_ name found hf hl
      rwa [SortedSet.add, SortedMap.contains, SortedMap.get?_insert_of_ne _ _ hne] at hs
    · have hsame := (hcms cm hcm).1.symm.trans hf
      rw [he, Option.some.inj hsame]

/-- Calls that turn what is cached into `next` keep the mirror, whichever of them fail. -/
theorem run {next : Resources} (fails : String → String → Bool)
    (h : Mirror labels hubs cache seeded)
    (hr : next.All fun cm => cm.normalize = cm ∧ labels.selects cm.labelSet) :
    Mirror labels ((cache.diff next).foldl (Call.runUnless fails) hubs)
      ((cache.diff next).foldl (Call.runUnless fails) cache) seeded := by
  have htoward : ∀ c ∈ cache.diff next, next.get? c.hub c.name = c.result := fun c hc =>
    (Resources.mem_diff.1 hc).1
  -- A call that works leaves on the hub what it leaves in the cache.
  have hboth (hub name : String) :
      (((cache.diff next).foldl (Call.runUnless fails) hubs).get? hub name = hubs.get? hub name ∧
        ((cache.diff next).foldl (Call.runUnless fails) cache).get? hub name =
          cache.get? hub name) ∨
      (((cache.diff next).foldl (Call.runUnless fails) hubs).get? hub name = next.get? hub name ∧
        ((cache.diff next).foldl (Call.runUnless fails) cache).get? hub name =
          next.get? hub name) := by
    rw [Resources.get?_run_toward hub name htoward, Resources.get?_run_toward hub name htoward]
    split
    · exact .inr ⟨rfl, rfl⟩
    · exact .inl ⟨rfl, rfl⟩
  refine ⟨fun hub name found hf => ?_, fun hub name cm hcm => ?_, fun hub hs name found hf hl => ?_⟩
  · rcases hboth hub name with ⟨hh, -⟩ | ⟨hh, -⟩
    · exact h.named hub name found (hh.symm.trans hf)
    · have hn := hh.symm.trans hf
      rw [(hr hub name found hn).1, Resources.key_of_get? hn]
  · rcases hboth hub name with ⟨hh, hc⟩ | ⟨hh, hc⟩
    · rw [hh]
      exact h.cached hub name cm (hc.symm.trans hcm)
    · have hn := hc.symm.trans hcm
      exact ⟨cm, hh.trans hn, hr hub name cm hn⟩
  · rcases hboth hub name with ⟨hh, hc⟩ | ⟨hh, hc⟩
    · rw [hc]
      exact h.seeded hub hs name found (hh.symm.trans hf) hl
    · have hn := hh.symm.trans hf
      rw [hc, hn, (hr hub name found hn).1]

end Mirror

namespace Mapping

/-- The cache of a controller mirrors the hubs that it has read. -/
def Mirrors (m : Mapping) (w : World) : Prop :=
  Mirror m.labels w.fleet.configMaps m.cache m.seeded

section
variable {m : Mapping} {w : World}

/-! ## What each phase keeps -/

theorem mirrors_seedHub (h : m.Mirrors w) (hub : String) :
    (seedHub (m, w) hub).1.Mirrors (seedHub (m, w) hub).2 := by
  have hreads := m.reads_seedHub w hub
  have hlabels : (seedHub (m, w) hub).1.labels = m.labels := by rw [hreads.mapping]; rfl
  have hhubs : (seedHub (m, w) hub).2.fleet.configMaps = w.fleet.configMaps := by rw [hreads.fleet]
  unfold Mirrors
  rw [hlabels, hhubs]
  rcases m.seedHub_cases w hub with ⟨-, he⟩ | ⟨-, he⟩ | ⟨-, -, he⟩
  · rw [he]
    exact h
  · rw [he]
    exact h
  · rw [he]
    refine Mirror.adopt h (w.fleet.list hub m.labels) (fun cm hcm => ?_) fun name found hf hl => ?_
    · obtain ⟨hmem, hl⟩ := List.mem_filter.1 hcm
      exact ⟨Fleet.mem_configMapsOf.1 hmem, hl⟩
    · refine List.mem_filter.2 ⟨Fleet.mem_configMapsOf.2 ?_, hl⟩
      rwa [Resources.key_of_get? hf]

theorem mirrors_seed (way : List String) {m : Mapping} {w : World} (h : m.Mirrors w) :
    (m.seed w way).1.Mirrors (m.seed w way).2 := by
  induction way generalizing m w with
  | nil => exact h
  | cons hub way ih => exact ih (mirrors_seedHub h hub)

theorem mirrors_reading (h : m.Mirrors w) : (m.reading w).1.Mirrors (m.reading w).2 :=
  mirrors_seed (m.way w) (w := w.count (·.synced m.pair)) h

/-- Calls that turn what is cached into what was rendered keep the mirror. -/
theorem mirrors_issued {next : Resources} {failed : Bool} {q : Progress} (h : m.Mirrors w)
    (hr : next.All fun cm => cm.normalize = cm ∧ m.labels.selects cm.labelSet)
    (hq : Issued ⟨m, w, failed⟩ (m.cache.diff next) q) : q.mapping.Mirrors q.world := by
  have hrun := Mirror.run w.fleet.writeFails h hr
  unfold Mirrors
  rw [hq.mapping, hq.fleet]
  exact hrun

theorem labels_reading (m : Mapping) (w : World) : (m.reading w).1.labels = m.labels := by
  rw [(reads_reading m w).mapping]
  rfl

/-- What is rendered is a name, labels and data alone, and carries the labels of the pair. -/
theorem all_rendering (m : Mapping) (w : World) : (m.rendering w).resources.All fun cm =>
    cm.normalize = cm ∧ m.labels.selects cm.labelSet := by
  have hall := (m.reading w).1.all_renderedFor (m.way w) ((m.readiness w).withWay (m.way w))
    (m.reading w).2 (fun _ => True) fun _ _ => trivial
  refine hall.mono fun cm h => ⟨h.plain, ?_⟩
  rw [← m.labels_reading w]
  exact h.labeled

theorem mirrors_rendering (h : m.Mirrors w) : (m.reading w).1.Mirrors (m.rendering w).world := by
  have hreading := mirrors_reading h
  unfold Mirrors at hreading ⊢
  rw [fleet_rendering]
  rwa [(reads_reading m w).fleet] at hreading

theorem mirrors_sync (h : m.Mirrors w) : (m.sync w).1.Mirrors (m.sync w).2 := by
  by_cases hc : m.Converges w
  · have hissued := mirrors_issued (mirrors_rendering h) (m.labels_reading w ▸ all_rendering m w)
      (issued_converging m w)
    unfold Mirrors at hissued ⊢
    rw [(sync_of_converges hc).1, (sync_of_converges hc).2.1]
    exact hissued
  · unfold Mirrors
    rcases sync_of_not_converges hc with ⟨hm, hf, -⟩ | ⟨hm, hf, -⟩
    · rw [hm, hf]
      exact h
    · rw [hm, hf]
      exact mirrors_rendering h

theorem mirrors_teardown (h : m.Mirrors w) : (m.teardown w).1.Mirrors (m.teardown w).2 := by
  obtain ⟨failed, hissued⟩ := issued_teardown m w
  have hmirrors := mirrors_issued (mirrors_seed (m.way w) h) Resources.all_empty hissued
  exact hmirrors

end

/-! ## Every state of a controller -/

/-- What the rest of the world may do between two synchronizations of a controller: whatever it
likes, but not to a ConfigMap with the labels of the pair. -/
structure Minds (labels : Labels) (w w' : World) : Prop where
  named : w'.fleet.configMaps.Named
  unlabeled : ∀ hub name,
    w'.fleet.configMaps.get? hub name ≠ w.fleet.configMaps.get? hub name →
    (∀ found, w.fleet.configMaps.get? hub name = some found → ¬ labels.selects found.labelSet) ∧
    ∀ found, w'.fleet.configMaps.get? hub name = some found → ¬ labels.selects found.labelSet

/-- The states in which a controller of a pair can be between two synchronizations. -/
inductive Reached (exporting importing identityFile : String) : Mapping → World → Prop where
  | start {w : World} (named : w.fleet.configMaps.Named) :
    Reached exporting importing identityFile (ofPair exporting importing identityFile) w
  | sync {m : Mapping} {w : World} (before : Reached exporting importing identityFile m w) :
    Reached exporting importing identityFile (m.sync w).1 (m.sync w).2
  | assign {m : Mapping} {w : World} (before : Reached exporting importing identityFile m w)
    (routes : List Route) : Reached exporting importing identityFile { m with routes } w
  | outside {m : Mapping} {w w' : World} (before : Reached exporting importing identityFile m w)
    (minds : Minds m.labels w w') : Reached exporting importing identityFile m w'

section
variable {exporting importing identityFile : String} {m : Mapping} {w : World}

theorem mirrors_of_reached (h : Reached exporting importing identityFile m w) : m.Mirrors w := by
  induction h with
  | start named => exact .start named
  | sync _ ih => exact mirrors_sync ih
  | assign _ _ ih => exact ih
  | outside _ minds ih => exact Mirror.outside ih minds.named minds.unlabeled

/-! ## What the hubs hold -/

/-- A synchronization that does not get to write leaves the ConfigMaps as they are. -/
theorem configMaps_sync_of_not_converges (hc : ¬ m.Converges w) :
    (m.sync w).2.fleet.configMaps = w.fleet.configMaps := by
  rcases sync_of_not_converges hc with ⟨-, hf, -⟩ | ⟨-, hf, -⟩
  · rw [hf]
  · rw [hf, fleet_rendering]

/-- If no call fails, what was rendered is cached. -/
theorem sync_of_untroubled (hc : m.Converges w) (hq : w.Untroubled (m.sync w).2) :
    (m.sync w).1 = { (m.reading w).1 with cache := (m.rendering w).resources } := by
  have hfails : (m.rendering w).world.fleet.writeFails = w.fleet.writeFails := by
    rw [fleet_rendering]
    rfl
  rw [(sync_of_converges hc).1, (issued_converging m w).mapping]
  simp only [hfails, Resources.run_diff_of_served (untroubled_sync hc hq).2]

/-- A synchronization that gets to write and of which no call fails leaves on each hub of the way
that is ready, with the labels of the pair, what it rendered and nothing else. -/
theorem get?_rendering_iff (h : m.Mirrors w) (hc : m.Converges w) (hq : w.Untroubled (m.sync w).2)
    {hub : String} (hway : hub ∈ m.way w) (hready : w.fleet.isReady hub = true) (name : String)
    (cm : ConfigMap) :
    (m.rendering w).resources.get? hub name = some cm ↔
      ∃ found, (m.sync w).2.fleet.configMaps.get? hub name = some found ∧
        m.labels.selects found.labelSet ∧ found.normalize = cm := by
  have hread := (untroubled_sync hc hq).1
  have hmirror := mirrors_sync h
  unfold Mirrors at hmirror
  rw [sync_of_untroubled hc hq, show Mapping.labels { (m.reading w).1 with cache := (m.rendering w).resources } =
    m.labels from m.labels_reading w] at hmirror
  constructor
  · intro hget
    obtain ⟨found, hf, hnorm, hl⟩ := hmirror.cached hub name cm hget
    exact ⟨found, hf, hl, hnorm⟩
  · intro ⟨found, hf, hl, hnorm⟩
    rw [← hnorm]
    exact hmirror.seeded hub (hread hub hway hready) name found hf hl

/-- A teardown of which no call fails leaves nothing with the labels of the pair on a hub that was
read. -/
theorem unlabeled_teardown (h : m.Mirrors w) (hq : w.Untroubled (m.teardown w).2) {hub : String}
    (hs : (m.teardown w).1.seeded.contains hub = true) {name : String} {found : ConfigMap}
    (hf : (m.teardown w).2.fleet.configMaps.get? hub name = some found) :
    ¬ m.labels.selects found.labelSet := by
  obtain ⟨failed, hissued⟩ := issued_teardown m w
  have hcache : (m.teardown w).1.cache = ∅ := by
    have hmapping := congrArg Mapping.cache hissued.mapping
    simp only [writeFails_seed, Resources.run_diff_of_served (untroubled_teardown hq)] at hmapping
    exact hmapping
  have hlabels : (m.teardown w).1.labels = m.labels := by
    have hmapping := hissued.mapping
    simp only at hmapping
    rw [hmapping, (reads_seed (m.way w) m w).mapping]
    rfl
  intro hl
  have hget := (mirrors_teardown h).seeded hub hs name found hf (hlabels ▸ hl)
  rw [hcache] at hget
  cases hget

/-- No call that was made from `w` to `w'` is about a ConfigMap, and it is as it was. -/
def LeavesAlone (w w' : World) (hub name : String) : Prop :=
  (∀ c ∈ w.callsTo w', ¬ (c.hub = hub ∧ c.name = name)) ∧
    w'.fleet.configMaps.get? hub name = w.fleet.configMaps.get? hub name

/-- A controller makes no call about what carries no labels of the pair and is not rendered. -/
theorem not_mem_diff (h : m.Mirrors w) {hub name : String}
    (hfree : ∀ found, w.fleet.configMaps.get? hub name = some found →
      ¬ m.labels.selects found.labelSet) {next : Resources} (hn : next.get? hub name = none) :
    ∀ c ∈ m.cache.diff next, ¬ (c.hub = hub ∧ c.name = name) := by
  rintro c hc ⟨rfl, rfl⟩
  obtain ⟨hresult, hne⟩ := Resources.mem_diff.1 hc
  rw [← hresult, hn] at hne
  exact hne (Mirror.get?_eq_none h hfree)

theorem leavesAlone_sync (h : m.Mirrors w) {hub name : String}
    (hfree : ∀ found, w.fleet.configMaps.get? hub name = some found →
      ¬ m.labels.selects found.labelSet)
    (hn : (m.rendering w).resources.get? hub name = none) :
    LeavesAlone w (m.sync w).2 hub name := by
  by_cases hc : m.Converges w
  · have hhubs : (m.rendering w).world.fleet.configMaps = w.fleet.configMaps := by
      rw [fleet_rendering]
    have hdiff := not_mem_diff (mirrors_rendering h) (by rwa [m.labels_reading w, hhubs]) hn
    refine ⟨by rwa [callsTo_sync hc], ?_⟩
    rw [(sync_of_converges hc).2.1, (issued_converging m w).fleet]
    simp only [hhubs]
    exact Resources.get?_run_elsewhere hdiff
  · refine ⟨by simp [callsTo_sync_of_not_converges hc], ?_⟩
    rw [configMaps_sync_of_not_converges hc]

theorem leavesAlone_teardown (h : m.Mirrors w) {hub name : String}
    (hfree : ∀ found, w.fleet.configMaps.get? hub name = some found →
      ¬ m.labels.selects found.labelSet) :
    LeavesAlone w (m.teardown w).2 hub name := by
  have hreads := reads_seed (m.way w) m w
  have hhubs : (m.seed w (m.way w)).2.fleet.configMaps = w.fleet.configMaps := by
    rw [hreads.fleet]
  have hlabels : (m.seed w (m.way w)).1.labels = m.labels := by
    rw [hreads.mapping]
    rfl
  have hdiff := not_mem_diff (mirrors_seed (m.way w) h) (by rwa [hlabels, hhubs])
    (Resources.get?_empty hub name)
  obtain ⟨failed, hissued⟩ := issued_teardown m w
  have hfleet := congrArg Fleet.configMaps hissued.fleet
  simp only [hhubs] at hfleet
  refine ⟨by rwa [callsTo_teardown], ?_⟩
  rw [hfleet]
  exact Resources.get?_run_elsewhere hdiff

/-- A hub that was read remains so. -/
theorem seeded_sync (m : Mapping) (w : World) {hub : String} (h : m.seeded.contains hub = true) :
    (m.sync w).1.seeded.contains hub = true := by
  have hreading : (m.reading w).1.seeded.contains hub = true :=
    seeded_seed (m.way w) m (w.count (·.synced m.pair)) h
  by_cases hc : m.Converges w
  · rw [(sync_of_converges hc).1, (issued_converging m w).mapping]
    exact hreading
  · rcases sync_of_not_converges hc with ⟨hm, -, -⟩ | ⟨hm, -, -⟩
    · rwa [hm]
    · rwa [hm]

theorem seeded_teardown (m : Mapping) (w : World) {hub : String}
    (h : m.seeded.contains hub = true) : (m.teardown w).1.seeded.contains hub = true := by
  obtain ⟨failed, hissued⟩ := issued_teardown m w
  have hseeded := congrArg Mapping.seeded hissued.mapping
  simp only at hseeded
  rw [hseeded]
  exact seeded_seed (m.way w) m w h

/-- Whatever a controller went through, its cache mirrors the hubs that it has read, and it does so
after a teardown; a hub that was read remains so. A synchronization that gets to write and of which
no call fails leaves on each hub of the way that is ready, with the labels of the pair, what it
rendered and nothing else. A teardown of which no call fails leaves nothing with these labels on
any hub that was ever read. And neither of them touches what carries no labels of the pair, unless
something is rendered under its name. -/
theorem mirrors_hubs (h : Reached exporting importing identityFile m w) :
    (m.Mirrors w ∧ (m.sync w).1.Mirrors (m.sync w).2 ∧ (m.teardown w).1.Mirrors (m.teardown w).2) ∧
    (∀ hub, m.seeded.contains hub = true → (m.sync w).1.seeded.contains hub = true ∧
      (m.teardown w).1.seeded.contains hub = true) ∧
    (m.Converges w → w.Untroubled (m.sync w).2 →
      ∀ hub ∈ m.way w, w.fleet.isReady hub = true → ∀ name cm,
        (m.rendering w).resources.get? hub name = some cm ↔
          ∃ found, (m.sync w).2.fleet.configMaps.get? hub name = some found ∧
            m.labels.selects found.labelSet ∧ found.normalize = cm) ∧
    (w.Untroubled (m.teardown w).2 → ∀ hub, (m.teardown w).1.seeded.contains hub = true →
      ∀ name found, (m.teardown w).2.fleet.configMaps.get? hub name = some found →
        ¬ m.labels.selects found.labelSet) ∧
    ∀ hub name, (∀ found, w.fleet.configMaps.get? hub name = some found →
        ¬ m.labels.selects found.labelSet) →
      LeavesAlone w (m.teardown w).2 hub name ∧
        ((m.rendering w).resources.get? hub name = none → LeavesAlone w (m.sync w).2 hub name) := by
  have hmirrors := mirrors_of_reached h
  refine ⟨⟨hmirrors, mirrors_sync hmirrors, mirrors_teardown hmirrors⟩, ?_, ?_, ?_, ?_⟩
  · exact fun hub hs => ⟨m.seeded_sync w hs, m.seeded_teardown w hs⟩
  · intro hc hq hub hway hready name cm
    exact get?_rendering_iff hmirrors hc hq hway hready name cm
  · intro hq hub hs name found hf
    exact unlabeled_teardown hmirrors hq hs hf
  · intro hub name hfree
    exact ⟨leavesAlone_teardown hmirrors hfree, leavesAlone_sync hmirrors hfree⟩

end

/-! ## A hub that was in use -/

/-- The controller of a pair with one route. -/
def tunneled : Mapping :=
  { ofPair "a" "b" "/key" with
    routes := [⟨some "n", "r", ⟨⟨"a", ⟨"n", "s"⟩⟩, ⟨"b", ⟨"n", "s"⟩⟩⟩, none⟩] }

/-- A ConfigMap that an earlier controller of the pair left, and one without labels. -/
def litter : Resources :=
  ((∅ : Resources).insert "a" (.rendered "left" (.pair "a" "b") [])).insert "a"
    (.rendered "settings" ∅ [])

theorem named_litter : litter.Named := by
  intro hub name found hf
  have hempty : (∅ : Resources).All fun cm => cm.normalize = cm := Resources.all_empty
  have hplain : litter.All fun cm => cm.normalize = cm :=
    (hempty.insert (ConfigMap.normalize_rendered "left" (.pair "a" "b") [])).insert
      (ConfigMap.normalize_rendered "settings" ∅ [])
  rw [hplain hub name found hf, Resources.key_of_get? hf]

/-- Two hubs that are ready, one of which can be dialed and is littered. -/
def littered : World where
  fleet := { Fleet.ofPool default with
    ready := ((∅ : SortedSet String).add "a").add "b"
    graph := ⟨(∅ : SortedMap String Gateway).insert "a" ⟨true, "a:22", [], [], [], []⟩, ∅⟩
    keys := (∅ : SortedMap String String).insert "b" "key"
    services := (∅ : SortedMap (String × String × String) Service).insert ("a", "n", "s")
      ⟨.empty, [⟨none, none, 80, none⟩]⟩
    configMaps := litter }
  board := .ofCapacity 1
  counters := .empty
  journal := []
  clock := default

/-- What an earlier controller left is replaced by what is rendered, and the teardown keeps its
hands off what is none of its business. -/
theorem mirrors_hubs_littered :
    tunneled.Converges littered ∧ littered.Untroubled (tunneled.sync littered).2 ∧
      (∀ name cm, (tunneled.rendering littered).resources.get? "a" name = some cm ↔
        ∃ found, (tunneled.sync littered).2.fleet.configMaps.get? "a" name = some found ∧
          tunneled.labels.selects found.labelSet ∧ found.normalize = cm) ∧
      LeavesAlone littered (tunneled.teardown littered).2 "a" "settings" := by
  have hconverges : tunneled.Converges littered :=
    ⟨by decide, by decide, by decide +kernel⟩
  have huntroubled : littered.Untroubled (tunneled.sync littered).2 := by decide +kernel
  have hreached : Reached "a" "b" "/key" tunneled littered :=
    (Reached.start named_litter).assign tunneled.routes
  have hunlabeled : ∀ found, littered.fleet.configMaps.get? "a" "settings" = some found →
      ¬ tunneled.labels.selects found.labelSet := by
    intro found hf
    have hsettings : littered.fleet.configMaps.get? "a" "settings" =
        some (.rendered "settings" ∅ []) := by decide +kernel
    rw [hsettings] at hf
    cases hf
    decide
  obtain ⟨-, -, hrendered, -, hfree⟩ := mirrors_hubs hreached
  have hway : "a" ∈ tunneled.way littered := by decide +kernel
  have hready : littered.fleet.isReady "a" = true := by decide
  exact ⟨hconverges, huntroubled, hrendered hconverges huntroubled "a" hway hready,
    (hfree "a" "settings" hunlabeled).1⟩

end Mapping

end HubFederation
