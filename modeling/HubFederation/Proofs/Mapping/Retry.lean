import HubFederation.Proofs.Mapping.Phases

/-!
# Synchronizing twice

A call that failed left the cache as it was, so the next synchronization makes it again;
one that worked is cached as rendered and is not made again.

* `syncCalls_eq`: where nothing has to be read, the calls of a synchronization are the
  difference between the cache and what is rendered.
* `sync_retries`: a second synchronization makes the calls that failed in the first one.
-/
namespace HubFederation.Mapping

/-- The calls of a synchronization that change a hub, or would if they worked. -/
def syncCalls (m : Mapping) (w : World) : List Call :=
  ((m.sync w).2.journal.drop w.journal.length).filterMap (·.2.call?)

/-- Those of them that fail. -/
def syncFailures (m : Mapping) (w : World) : List Call :=
  ((m.sync w).2.journal.drop w.journal.length).filterMap (·.2.failedCall?)

section
variable {m : Mapping} {w : World}

/-- All hubs of the way that are ready were read before. -/
def Informed (m : Mapping) (w : World) : Prop :=
  ∀ hub ∈ m.way w, w.fleet.isReady hub → m.seeded.contains hub

theorem reading_of_informed (h : m.Informed w) : m.reading w = (m, w.count (·.synced m.pair)) :=
  seed_of_seeded h

theorem allocates_rendering (h : m.Informed w) :
    World.Allocates m.importing w (m.rendering w).world := by
  unfold rendering
  rw [reading_of_informed h]
  have hcounted : World.Allocates m.importing w (w.count (·.synced m.pair)) :=
    World.allocates_of_eq m.importing rfl rfl
  exact hcounted.trans (allocates_renderAll m _ _ _)

/-- Writing starts from the cache and from hubs that refuse what they refused before. -/
theorem issued_of_informed (h : m.Informed w) :
    Issued ⟨m, (m.rendering w).world, false⟩ (m.cache.diff (m.rendering w).resources)
      (m.converging w) := by
  have hissued := issued_converging m w
  rwa [reading_of_informed h] at hissued

theorem writeFails_rendering (h : m.Informed w) :
    (m.rendering w).world.fleet.writeFails = w.fleet.writeFails := by
  rw [(allocates_rendering h).fleet]
  rfl

/-- The calls of a synchronization are the difference between the cache and what is
rendered, and those fail that the hubs refuse. -/
theorem syncCalls_eq (h : m.Informed w) (hc : m.Converges w) :
    m.syncCalls w = m.cache.diff (m.rendering w).resources ∧
      m.syncFailures w = (m.cache.diff (m.rendering w).resources).filter
        fun c => w.fleet.writeFails c.hub c.name := by
  obtain ⟨es, hes, hnone⟩ := (allocates_rendering h).journal
  have hcalls : es.filterMap (·.2.call?) = [] := List.filterMap_eq_nil_iff.2 hnone
  have hfailed : es.filterMap (·.2.failedCall?) = [] :=
    List.filterMap_eq_nil_iff.2 fun e he => Effect.failedCall?_of_call? (hnone e he)
  have hjournal : (m.sync w).2.journal.drop w.journal.length =
      es ++ (m.cache.diff (m.rendering w).resources).map fun c =>
        (some m.pair, c.effect (w.fleet.writeFails c.hub c.name)) := by
    rw [(sync_of_converges hc).2.2, (issued_of_informed h).journal, writeFails_rendering h]
    simp only
    rw [hes, List.append_assoc, List.drop_left]
  constructor
  · unfold syncCalls
    rw [hjournal, List.filterMap_append, hcalls, List.nil_append, List.filterMap_map]
    have hcall : (fun e : Owner × Effect => e.2.call?) ∘ (fun c : Call =>
        (some m.pair, c.effect (w.fleet.writeFails c.hub c.name))) = some :=
      funext fun c => Call.call?_effect _ c
    rw [hcall, List.filterMap_some]
  · unfold syncFailures
    rw [hjournal, List.filterMap_append, hfailed, List.nil_append, List.filterMap_map,
      ← List.filterMap_eq_filter]
    congr 1
    funext c
    simp [Option.guard]

/-- A ConfigMap that the hubs refuse is cached as before, any other one as rendered. -/
theorem get?_cache_sync (h : m.Informed w) (hc : m.Converges w) (hub name : String) :
    (m.sync w).1.cache.get? hub name =
      if w.fleet.writeFails hub name then m.cache.get? hub name
      else (m.rendering w).resources.get? hub name := by
  rw [(sync_of_converges hc).1, (issued_of_informed h).mapping, writeFails_rendering h]
  exact Resources.get?_run_diff m.cache hub name

/-- What a synchronization leaves is the controller with another cache. -/
theorem sync_fst (h : m.Informed w) (hc : m.Converges w) :
    (m.sync w).1 = { m with cache := (m.sync w).1.cache, seeded := m.seeded } := by
  rw [(sync_of_converges hc).1, (issued_of_informed h).mapping]

/-- In a world that shows the same and has the same ports bound, the second synchronization
has nothing to read and renders the same. -/
theorem converges_again (h : m.Informed w) (hc : m.Converges w) {w' : World}
    (hsame : (m.sync w).2.fleet.Agrees w'.fleet)
    (hports : w'.fleet.ports = (m.sync w).2.fleet.ports) :
    (m.sync w).1.Informed w' ∧ (m.sync w).1.Converges w' ∧
      ((m.sync w).1.rendering w').resources = (m.rendering w).resources := by
  have halloc := allocates_rendering h
  have hfleet : (m.sync w).2.fleet = { (m.rendering w).world.fleet with
      configMaps := (m.sync w).2.fleet.configMaps } := by
    rw [(sync_of_converges hc).2.1, (issued_of_informed h).fleet]
  have hagrees : w.fleet.Agrees w'.fleet := by
    refine halloc.agrees.trans ?_
    rw [hfleet] at hsame
    exact ⟨hsame.ready, hsame.graph, hsame.keys, hsame.services⟩
  have hgrows : ((m.rendering w).world.pool m.importing).Grows (w'.pool m.importing) := by
    unfold World.pool
    rw [hports, hfleet]
    exact .refl _
  have hready := hagrees.isReady
  have hway := m.way_agrees hagrees
  have hinformed : Informed { m with cache := (m.sync w).1.cache, seeded := m.seeded } w' := by
    change ∀ hub ∈ m.way w', w'.fleet.isReady hub → m.seeded.contains hub
    rw [hready, hway]
    exact h
  have hecho : (m.rendering w).Echoes
      (rendering { m with cache := (m.sync w).1.cache, seeded := m.seeded } w')
      (w'.count (·.synced m.pair)) := by
    unfold rendering at hgrows ⊢
    rw [reading_of_informed h] at hgrows ⊢
    rw [reading_of_informed hinformed]
    have hcounted : (w.count (·.synced m.pair)).fleet.Agrees
      (w'.count (·.synced m.pair)).fleet := hagrees
    have := renderAll_replay m (m.way w) ((m.readiness w).withWay (m.way w))
      ((m.readiness w').withWay (m.way w')) (m.sync w).1.cache m.seeded hcounted
      fun _ _ peer _ => hgrows.answers peer
    rw [← hway] at this ⊢
    exact this
  rw [sync_fst h hc]
  refine ⟨hinformed, ⟨?_, ?_, hecho.frozen.trans hc.built⟩, hecho.resources⟩
  · rw [hready]; exact hc.exporting
  · rw [hready]; exact hc.importing

/-- A second synchronization, with nothing changed but by the first one, makes the calls that
failed in the first one and no others. So if none failed, everything is cached as it was
rendered and no call is left to be made. -/
theorem sync_retries (h : m.Informed w) (hc : m.Converges w) {w' : World}
    (hsame : (m.sync w).2.fleet.Agrees w'.fleet)
    (hports : w'.fleet.ports = (m.sync w).2.fleet.ports) :
    (m.sync w).1.syncCalls w' = m.syncFailures w ∧
      (m.syncFailures w = [] → (m.sync w).1.cache = (m.rendering w).resources ∧
        (m.sync w).1.syncCalls w' = []) := by
  obtain ⟨hinformed, hagain, hresources⟩ := converges_again h hc hsame hports
  have hcalls : (m.sync w).1.syncCalls w' = m.syncFailures w := by
    rw [(syncCalls_eq hinformed hagain).1, hresources, (syncCalls_eq h hc).2]
    exact Resources.diff_retry (get?_cache_sync h hc)
  refine ⟨hcalls, fun hnone => ?_⟩
  rw [hcalls]
  refine ⟨Resources.eq_of_diff_eq_nil ?_, hnone⟩
  rw [Resources.diff_retry (get?_cache_sync h hc), ← (syncCalls_eq h hc).2, hnone]

end

/-- A pair without routes that remembers a ConfigMap on each of its hubs. -/
def abandoned : Mapping :=
  { ofPair "a" "b" "/key" with
    cache := ((∅ : Resources).insert "a" (.rendered "old" ∅ [])).insert "b" (.rendered "old" ∅ [])
    seeded := ((∅ : SortedSet String).add "a").add "b" }

/-- Two hubs that are ready, one of which refuses calls about one ConfigMap. -/
def refusing : World where
  fleet := { Fleet.ofPool default with
    ready := ((∅ : SortedSet String).add "a").add "b"
    failingNames := (∅ : SortedSet (String × String)).add ("a", "old") }
  board := .ofCapacity 1
  counters := .empty
  journal := []
  clock := default

/-- A ConfigMap that could not be deleted is deleted again, the other one is not. -/
theorem sync_retries_refused_delete :
    (abandoned.sync refusing).1.syncCalls (abandoned.sync refusing).2 = [.delete "a" "old"] := by
  have hinformed : abandoned.Informed refusing := fun _ _ h => h
  have hrendering : abandoned.rendering refusing =
      ⟨refusing.count (·.synced abandoned.pair), ∅, [], false⟩ := by
    unfold rendering
    rw [reading_of_informed hinformed]
    rfl
  have hconverges : abandoned.Converges refusing :=
    ⟨by decide, by decide, by rw [hrendering]⟩
  rw [(sync_retries hinformed hconverges ⟨rfl, rfl, rfl, rfl⟩ rfl).1,
    (syncCalls_eq hinformed hconverges).2, hrendering]
  decide

end HubFederation.Mapping
