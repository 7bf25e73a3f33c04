import HubFederation.Mapping.Basic
import HubFederation.Proofs.Resources.Diff

/-!
# The calls of a controller

Every call that a controller makes is journaled, changes the hub and the cache alike if it
works, and changes neither if it fails. `Issued` says all of this about a list of calls.

* `issued_issue`: one call.
* `issued_converge`: converging makes the calls of the difference between the cache and
  what was rendered.
* `issued_deletes`: tearing down deletes all that is cached.
-/
namespace HubFederation

namespace Effect

/-- The call that an effect is about, if it is one that changes a hub. -/
def call? : Effect → Option Call
  | applied hub cm | applyFailed hub cm => some (.apply hub cm)
  | deleted hub name | deleteFailed hub name => some (.delete hub name)
  | _ => none

/-- The call that an effect is about, if it failed. -/
def failedCall? : Effect → Option Call
  | applyFailed hub cm => some (.apply hub cm)
  | deleteFailed hub name => some (.delete hub name)
  | _ => none

/-- What is no call is none that failed. -/
theorem failedCall?_of_call? {e : Effect} (h : e.call? = none) : e.failedCall? = none := by
  cases e <;> first | rfl | cases h

end Effect

namespace Call

/-- What is journaled of a call. -/
def effect (failed : Bool) : Call → Effect
  | apply hub cm => if failed then .applyFailed hub cm else .applied hub cm
  | delete hub name => if failed then .deleteFailed hub name else .deleted hub name

@[simp] theorem call?_effect (failed : Bool) (c : Call) : (c.effect failed).call? = some c := by
  cases c <;> cases failed <;> rfl

@[simp] theorem failedCall?_effect (failed : Bool) (c : Call) :
    (c.effect failed).failedCall? = if failed then some c else none := by
  cases c <;> cases failed <;> rfl

end Call

namespace Mapping

/-- Makes a call and takes note of what came of it. -/
def issue (p : Progress) : Call → Progress
  | .apply hub cm => applyOne p (hub, cm)
  | .delete hub name => deleteOne p (hub, name)

/-- `q` is `p` after `calls`, of which those failed that the hubs refuse. -/
structure Issued (p : Progress) (calls : List Call) (q : Progress) : Prop where
  mapping : q.mapping = { p.mapping with
    cache := calls.foldl (Call.runUnless p.world.fleet.writeFails) p.mapping.cache }
  fleet : q.world.fleet = { p.world.fleet with
    configMaps := calls.foldl (Call.runUnless p.world.fleet.writeFails)
      p.world.fleet.configMaps }
  journal : q.world.journal = p.world.journal ++ calls.map fun c =>
    (some p.mapping.pair, c.effect (p.world.fleet.writeFails c.hub c.name))
  failed : q.failed = (p.failed || calls.any fun c => p.world.fleet.writeFails c.hub c.name)
  board : q.world.board = p.world.board
  clock : q.world.clock = p.world.clock

theorem issued_nil (p : Progress) : Issued p [] p := by
  refine ⟨rfl, rfl, ?_, ?_, rfl, rfl⟩ <;> simp

theorem issued_issue (p : Progress) (c : Call) : Issued p [c] (issue p c) := by
  cases c with
  | apply hub cm =>
    by_cases h : p.world.fleet.writeFails hub cm.key
    · constructor <;> simp [issue, applyOne, World.apply, World.count, World.record,
        Call.runUnless, Call.hub, Call.name, Call.effect, h]
    · constructor <;> simp [issue, applyOne, World.apply, World.count, World.record, Fleet.put,
        Call.runUnless, Call.run, Call.hub, Call.name, Call.effect, h]
  | delete hub name =>
    by_cases h : p.world.fleet.writeFails hub name
    · constructor <;> simp [issue, deleteOne, World.delete, World.count, World.record,
        Call.runUnless, Call.hub, Call.name, Call.effect, h]
    · constructor <;> simp [issue, deleteOne, World.delete, World.count, World.record,
        Fleet.delete, Call.runUnless, Call.run, Call.hub, Call.name, Call.effect, h]

theorem Issued.trans {p q r : Progress} {calls calls' : List Call} (h : Issued p calls q)
    (h' : Issued q calls' r) : Issued p (calls ++ calls') r := by
  have hfails : q.world.fleet.writeFails = p.world.fleet.writeFails := by rw [h.fleet]; rfl
  have hpair : q.mapping.pair = p.mapping.pair := by rw [h.mapping]; rfl
  constructor
  · rw [h'.mapping, hfails, h.mapping, List.foldl_append]
  · rw [h'.fleet, hfails, h.fleet, List.foldl_append]
  · rw [h'.journal, hfails, hpair, h.journal, List.map_append, List.append_assoc]
  · rw [h'.failed, hfails, h.failed, List.any_append, Bool.or_assoc]
  · rw [h'.board, h.board]
  · rw [h'.clock, h.clock]

theorem issued_issueAll (calls : List Call) (p : Progress) :
    Issued p calls (calls.foldl issue p) := by
  induction calls generalizing p with
  | nil => exact issued_nil p
  | cons c calls ih => exact (issued_issue p c).trans (ih (issue p c))

/-- Deleting ConfigMaps by hub and name. -/
theorem issued_deletes (es : List (String × String)) (p : Progress) :
    Issued p (es.map fun e => .delete e.1 e.2) (es.foldl deleteOne p) := by
  have h := issued_issueAll (es.map fun e => .delete e.1 e.2) p
  rwa [List.foldl_map] at h

theorem issued_applies (es : List (String × ConfigMap)) (p : Progress) :
    Issued p (es.map fun e => .apply e.1 e.2) (es.foldl applyOne p) := by
  have h := issued_issueAll (es.map fun e => .apply e.1 e.2) p
  rwa [List.foldl_map] at h

/-- What is applied first does not change what there is to delete. -/
theorem toDelete_applied (fails : String → String → Bool) (r next : Resources) :
    (((r.toApply next).map fun e => .apply e.1 e.2).foldl (Call.runUnless fails) r).toDelete next =
      r.toDelete next := by
  have htoward : ∀ c ∈ (r.toApply next).map fun e => Call.apply e.1 e.2,
      next.get? c.hub c.name = c.result := fun c hc =>
    (Resources.mem_diff.1
      (List.mem_append_left ((r.toDelete next).map fun e => .delete e.1 e.2) hc)).1
  refine SortedMap.eq_of_mem_iff id (Resources.sorted_toDelete ..) (Resources.sorted_toDelete ..)
    fun ⟨hub, name⟩ => ?_
  rw [Resources.mem_toDelete, Resources.mem_toDelete, Resources.get?_run_toward hub name htoward]
  refine and_congr_left fun hn => ?_
  rw [if_neg]
  intro ⟨_, c, hc, hhub, hname⟩
  obtain ⟨e, -, rfl⟩ := List.mem_map.1 hc
  have hresult := htoward _ hc
  rw [hhub, hname, hn] at hresult
  cases hresult

/-- Converging makes the calls of the difference between the cache and what was rendered. -/
theorem issued_converge (m : Mapping) (w : World) (next : Resources) :
    Issued ⟨m, w, false⟩ (m.cache.diff next) (m.converge w next) := by
  have happly := issued_applies (m.cache.toApply next) ⟨m, w, false⟩
  have hdelete := issued_deletes
    (((m.cache.toApply next).foldl applyOne ⟨m, w, false⟩).mapping.cache.toDelete next)
    ((m.cache.toApply next).foldl applyOne ⟨m, w, false⟩)
  have h := happly.trans hdelete
  rw [happly.mapping] at h
  simp only [toDelete_applied] at h
  unfold converge Resources.diff
  simp only
  rwa [happly.mapping, toDelete_applied]

end Mapping

end HubFederation
