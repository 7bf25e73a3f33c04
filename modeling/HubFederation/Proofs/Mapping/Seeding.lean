import HubFederation.Proofs.Mapping.Reading

/-!
# Which hubs are read

A hub is read once. A listing that fails is journaled and leaves the hub for the next time,
one that works takes in every ConfigMap of the hub that carries the labels of the pair.

* `journal_seed`: reading makes no call that changes a hub, and unless a listing fails every
  hub of the way that is ready has been read in the end.
* `callsTo_sync`, `callsTo_teardown`: the calls of a synchronization and of a teardown are a
  difference from what is cached once the hubs are read.
-/
namespace HubFederation

/-- Whether an effect is a call that failed. -/
def Effect.isFailure : Effect → Bool
  | listFailed .. | applyFailed .. | deleteFailed .. => true
  | _ => false

namespace World

/-- The calls that change a hub, or would if they worked, among those made from `w` to `w'`. -/
def callsTo (w w' : World) : List Call :=
  (w'.journal.drop w.journal.length).filterMap (·.2.call?)

/-- No call that was made from `w` to `w'` failed. -/
def Untroubled (w w' : World) : Prop :=
  ∀ e ∈ w'.journal.drop w.journal.length, e.2.isFailure = false

instance (w w' : World) : Decidable (w.Untroubled w') :=
  inferInstanceAs (Decidable (∀ e ∈ w'.journal.drop w.journal.length, e.2.isFailure = false))

theorem callsTo_append {w w' : World} {es : List (Owner × Effect)}
    (h : w'.journal = w.journal ++ es) : w.callsTo w' = es.filterMap (·.2.call?) := by
  unfold callsTo
  rw [h, List.drop_left]

@[simp] theorem isFailure_effect (failed : Bool) (c : Call) :
    (c.effect failed).isFailure = failed := by
  cases c <;> cases failed <;> rfl

/-- What is journaled of calls, behind effects that are none. -/
theorem callsTo_issued {w w' : World} {owner : Owner} {es : List (Owner × Effect)}
    {calls : List Call} {fails : String → String → Bool}
    (h : w'.journal = w.journal ++
      (es ++ calls.map fun c => (owner, c.effect (fails c.hub c.name))))
    (hes : ∀ e ∈ es, e.2.call? = none) :
    w.callsTo w' = calls ∧ (w.Untroubled w' →
      (∀ e ∈ es, e.2.isFailure = false) ∧ ∀ c ∈ calls, fails c.hub c.name = false) := by
  constructor
  · have hcall : (fun e : Owner × Effect => e.2.call?) ∘
        (fun c : Call => (owner, c.effect (fails c.hub c.name))) = some :=
      funext fun c => Call.call?_effect _ c
    rw [callsTo_append h, List.filterMap_append, List.filterMap_eq_nil_iff.2 hes, List.nil_append,
      List.filterMap_map, hcall, List.filterMap_some]
  · intro hquiet
    unfold Untroubled at hquiet
    rw [h, List.drop_left] at hquiet
    refine ⟨fun e he => hquiet e (List.mem_append_left _ he), fun c hc => ?_⟩
    have hfails := hquiet _ (List.mem_append_right _ (List.mem_map_of_mem hc))
    rwa [isFailure_effect] at hfails

end World

namespace Mapping

/-! ## One hub -/

/-- A hub that was read remains so. -/
theorem seeded_seedHub (m : Mapping) (w : World) {hub hub' : String}
    (h : m.seeded.contains hub' = true) : (seedHub (m, w) hub).1.seeded.contains hub' = true := by
  rcases m.seedHub_cases w hub with ⟨-, he⟩ | ⟨-, he⟩ | ⟨-, -, he⟩
  · rw [he]; exact h
  · rw [he]; exact h
  · rw [he]
    simp only [SortedSet.add, SortedMap.contains, SortedMap.get?_insert]
    split
    · rfl
    · exact h

/-- Reading a hub makes no call that changes one. Unless the listing fails, the hub has been read
in the end if it is ready. -/
theorem journal_seedHub (m : Mapping) (w : World) (hub : String) :
    ∃ es, (seedHub (m, w) hub).2.journal = w.journal ++ es ∧ (∀ e ∈ es, e.2.call? = none) ∧
      ((∀ e ∈ es, e.2.isFailure = false) → w.fleet.isReady hub = true →
        (seedHub (m, w) hub).1.seeded.contains hub = true) := by
  obtain ⟨es, hes, hcall⟩ := (m.steps_seedHub w hub).prepares.journal
  refine ⟨es, hes, hcall, fun hquiet hready => ?_⟩
  rcases m.seedHub_cases w hub with ⟨hskip, he⟩ | ⟨-, he⟩ | ⟨-, -, he⟩
  · rw [he]
    exact hskip.resolve_right (by simp [hready])
  · rw [he] at hes
    cases List.append_cancel_left hes
    have hlisted := hquiet _ (List.mem_singleton.2 rfl)
    cases hlisted
  · rw [he]
    simp [SortedSet.add, SortedMap.contains]

/-! ## The hubs of a way -/

theorem seed_cons (m : Mapping) (w : World) (hub : String) (way : List String) :
    m.seed w (hub :: way) = (seedHub (m, w) hub).1.seed (seedHub (m, w) hub).2 way := rfl

theorem seeded_seed (way : List String) (m : Mapping) (w : World) {hub : String}
    (h : m.seeded.contains hub = true) : (m.seed w way).1.seeded.contains hub = true := by
  induction way generalizing m w with
  | nil => exact h
  | cons here way ih => exact ih _ _ (m.seeded_seedHub w h)

/-- Where it can be listed, a hub of the way that is ready has been read in the end. -/
theorem seeded_seed_of_listed {hub : String} (way : List String) {m : Mapping} {w : World}
    (hmem : hub ∈ way) (hready : w.fleet.isReady hub = true) (hlist : w.fleet.listFails hub = false) :
    (m.seed w way).1.seeded.contains hub = true := by
  induction way generalizing m w with
  | nil => cases hmem
  | cons here way ih =>
    have hfleet := (reads_seedHub m w here).fleet
    rcases List.mem_cons.1 hmem with rfl | hmem
    · have hread : (seedHub (m, w) hub).1.seeded.contains hub = true := by
        rcases m.seedHub_cases w hub with ⟨hskip, he⟩ | ⟨hfails, -⟩ | ⟨-, -, he⟩
        · rw [he]
          exact hskip.resolve_right (by simp [hready])
        · rw [hlist] at hfails
          cases hfails
        · rw [he]
          simp [SortedSet.add, SortedMap.contains]
      exact seeded_seed way _ _ hread
    · rw [seed_cons]
      refine ih hmem ?_ ?_
      · rw [hfleet]
        exact hready
      · rw [hfleet]
        exact hlist

/-- Nothing is taken in from a hub that is not on the way or not ready. -/
theorem cache_seed_elsewhere {hub : String} (way : List String) {m : Mapping} {w : World}
    (h : hub ∈ way → w.fleet.isReady hub = false) (name : String) :
    (m.seed w way).1.cache.get? hub name = m.cache.get? hub name := by
  induction way generalizing m w with
  | nil => rfl
  | cons here way ih =>
    have hfleet := (reads_seedHub m w here).fleet
    have hone : (seedHub (m, w) here).1.cache.get? hub name = m.cache.get? hub name := by
      rcases m.seedHub_cases w here with ⟨-, he⟩ | ⟨-, he⟩ | ⟨hready, -, he⟩
      · rw [he]
      · rw [he]
      · have hne : here ≠ hub := by
          rintro rfl
          rw [h (List.mem_cons_self ..)] at hready
          cases hready
        rw [he]
        rcases Resources.get?_foldl_insert
          ((w.fleet.list here m.labels).map fun cm => (here, cm.normalize)) m.cache hub name with
          ⟨hget, -⟩ | ⟨e, hmem, hhub, -⟩
        · rwa [List.foldl_map] at hget
        · obtain ⟨cm, -, rfl⟩ := List.mem_map.1 hmem
          exact absurd hhub hne
    have hrest : hub ∈ way → (seedHub (m, w) here).2.fleet.isReady hub = false := by
      rw [hfleet]
      exact fun hmem => h (List.mem_cons_of_mem _ hmem)
    exact (ih hrest).trans hone

/-- Reading makes no call that changes a hub. Unless a listing fails, every hub of the way that
is ready has been read in the end. -/
theorem journal_seed (way : List String) (m : Mapping) (w : World) :
    ∃ es, (m.seed w way).2.journal = w.journal ++ es ∧ (∀ e ∈ es, e.2.call? = none) ∧
      ((∀ e ∈ es, e.2.isFailure = false) → ∀ hub ∈ way, w.fleet.isReady hub = true →
        (m.seed w way).1.seeded.contains hub = true) := by
  induction way generalizing m w with
  | nil => exact ⟨[], (List.append_nil _).symm, by simp, by simp⟩
  | cons here way ih =>
    obtain ⟨es, hes, hcall, hread⟩ := m.journal_seedHub w here
    obtain ⟨es', hes', hcall', hread'⟩ := ih (seedHub (m, w) here).1 (seedHub (m, w) here).2
    refine ⟨es ++ es', ?_, ?_, ?_⟩
    · rw [seed_cons, hes', hes, List.append_assoc]
    · intro e he
      rcases List.mem_append.1 he with he | he
      · exact hcall e he
      · exact hcall' e he
    · intro hquiet hub hmem hready
      rw [seed_cons]
      rcases List.mem_cons.1 hmem with rfl | hmem
      · exact seeded_seed way _ _ (hread (fun e he => hquiet e (List.mem_append_left _ he)) hready)
      · refine hread' (fun e he => hquiet e (List.mem_append_right _ he)) hub hmem ?_
        rw [(reads_seedHub m w here).fleet]
        exact hready

/-! ## The calls of a controller -/

theorem writeFails_seed (m : Mapping) (w : World) (way : List String) :
    (m.seed w way).2.fleet.writeFails = w.fleet.writeFails := by
  rw [(reads_seed way m w).fleet]
  rfl

/-- A synchronization that gets to write first journals what it read and the ports that it
bound, then its calls. -/
theorem journal_of_converges {m : Mapping} {w : World} (hc : m.Converges w) :
    ∃ es, (m.sync w).2.journal = w.journal ++
        (es ++ ((m.reading w).1.cache.diff (m.rendering w).resources).map fun c =>
          (some m.pair, c.effect (w.fleet.writeFails c.hub c.name))) ∧
      (∀ e ∈ es, e.2.call? = none) ∧
      ((∀ e ∈ es, e.2.isFailure = false) → ∀ hub ∈ m.way w, w.fleet.isReady hub = true →
        (m.reading w).1.seeded.contains hub = true) := by
  obtain ⟨es, hes, hcall, hread⟩ := journal_seed (m.way w) m (w.count (·.synced m.pair))
  obtain ⟨es', hes', hcall'⟩ := (allocates_renderAll (m.reading w).1 (m.way w)
    ((m.readiness w).withWay (m.way w)) (m.reading w).2).journal
  have hpair : (m.reading w).1.pair = m.pair := by rw [(reads_reading m w).mapping]; rfl
  have hfails : (m.rendering w).world.fleet.writeFails = w.fleet.writeFails := by
    rw [fleet_rendering]
    rfl
  refine ⟨es ++ es', ?_, ?_, ?_⟩
  · rw [(sync_of_converges hc).2.2, (issued_converging m w).journal]
    simp only [hpair, hfails]
    rw [← List.append_assoc, ← List.append_assoc]
    congr 1
    exact hes'.trans (congrArg (· ++ es') hes)
  · intro e he
    exact (List.mem_append.1 he).elim (hcall e) (hcall' e)
  · exact fun hquiet => hread fun e he => hquiet e (List.mem_append_left _ he)

theorem callsTo_sync {m : Mapping} {w : World} (hc : m.Converges w) :
    w.callsTo (m.sync w).2 = (m.reading w).1.cache.diff (m.rendering w).resources := by
  obtain ⟨es, hes, hcall, -⟩ := journal_of_converges hc
  exact (World.callsTo_issued hes hcall).1

/-- If no call of a synchronization fails, every hub of the way that is ready has been read, and
none of the calls is refused. -/
theorem untroubled_sync {m : Mapping} {w : World} (hc : m.Converges w)
    (h : w.Untroubled (m.sync w).2) :
    (∀ hub ∈ m.way w, w.fleet.isReady hub = true → (m.reading w).1.seeded.contains hub = true) ∧
      ∀ c ∈ (m.reading w).1.cache.diff (m.rendering w).resources,
        w.fleet.writeFails c.hub c.name = false := by
  obtain ⟨es, hes, hcall, hread⟩ := journal_of_converges hc
  obtain ⟨hquiet, hserved⟩ := (World.callsTo_issued hes hcall).2 h
  exact ⟨hread hquiet, hserved⟩

/-- A synchronization that does not get to write makes no call that changes a hub. -/
theorem callsTo_sync_of_not_converges {m : Mapping} {w : World} (hc : ¬ m.Converges w) :
    w.callsTo (m.sync w).2 = [] := by
  rcases sync_of_not_converges hc with ⟨-, -, hj⟩ | ⟨-, -, hj⟩
  · rw [World.callsTo_append (hj.trans (List.append_nil _).symm), List.filterMap_nil]
  · obtain ⟨es, hes, hcall⟩ := (m.steps_rendering w).prepares.journal
    rw [World.callsTo_append (hj.trans hes), List.filterMap_eq_nil_iff.2 hcall]

/-- A teardown journals what it read, then that it deletes all that is cached. -/
theorem journal_teardown (m : Mapping) (w : World) :
    ∃ es, (m.teardown w).2.journal = w.journal ++
        (es ++ ((m.seed w (m.way w)).1.cache.diff ∅).map fun c =>
          (some m.pair, c.effect (w.fleet.writeFails c.hub c.name))) ∧
      (∀ e ∈ es, e.2.call? = none) := by
  obtain ⟨es, hes, hcall, -⟩ := journal_seed (m.way w) m w
  obtain ⟨failed, hissued⟩ := m.issued_teardown w
  have hpair : (m.seed w (m.way w)).1.pair = m.pair := by
    rw [(reads_seed (m.way w) m w).mapping]
    rfl
  refine ⟨es, ?_, hcall⟩
  have hjournal := hissued.journal
  simp only [hpair, writeFails_seed] at hjournal
  rw [hjournal, hes, List.append_assoc]

theorem callsTo_teardown (m : Mapping) (w : World) :
    w.callsTo (m.teardown w).2 = (m.seed w (m.way w)).1.cache.diff ∅ := by
  obtain ⟨es, hes, hcall⟩ := m.journal_teardown w
  exact (World.callsTo_issued hes hcall).1

theorem untroubled_teardown {m : Mapping} {w : World} (h : w.Untroubled (m.teardown w).2) :
    ∀ c ∈ (m.seed w (m.way w)).1.cache.diff ∅, w.fleet.writeFails c.hub c.name = false := by
  obtain ⟨es, hes, hcall⟩ := m.journal_teardown w
  exact ((World.callsTo_issued hes hcall).2 h).2

end Mapping

end HubFederation
