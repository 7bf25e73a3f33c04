import HubFederation.Proofs.Lookup
import HubFederation.Proofs.Status.Desk

/-!
# What a board tells of a condition

A condition of a route holds if the last finding about it says so. A report that says nothing
about it leaves it as it was, and so does everything else that a board goes through, as long as
the route is known.

* `isTrue_apply`: a report's last finding decides.
* `tells_report`: so it is on a board, for the route that the report is about.
* `tells_deeds`: whatever else happens at a desk leaves the condition alone.
-/
namespace HubFederation

/-- What a report says last about a type. -/
def Report.verdict? (type : ConditionType) (r : Report) : Option Bool :=
  (r.findings.filter (·.type = type)).getLast?.map (·.ready)

namespace RouteState

theorem isTrue_record (now : Timestamp) (s : RouteState) (f : Finding) (type : ConditionType) :
    (s.record now f).isTrue type = if f.type = type then f.ready else s.isTrue type := by
  unfold isTrue record
  simp only
  by_cases h : f.type = type
  · subst h
    rw [SortedMap.get?_insert_self, if_pos rfl]
    cases hready : f.ready <;> simp [Finding.status, hready]
  · rw [SortedMap.get?_insert_of_ne _ _ (Ne.symm h), if_neg h]

theorem isTrue_foldl_record (now : Timestamp) (fs : List Finding) (s : RouteState)
    (type : ConditionType) :
    (fs.foldl (record now) s).isTrue type =
      ((fs.filter (·.type = type)).getLast?.map (·.ready)).getD (s.isTrue type) :=
  read_foldl_filter (isTrue · type) (fun f s => isTrue_record now s f type) fs s

theorem isTrue_apply (now : Timestamp) (s : RouteState) (r : Report) (type : ConditionType) :
    (s.apply now r).isTrue type = (r.verdict? type).getD (s.isTrue type) := by
  unfold apply Report.verdict?
  simp only
  rw [isTrue_foldl_record]
  cases r.way <;> rfl

end RouteState

namespace StatusBoard

/-- Whether a condition of a route holds, if the route is known. -/
def tells (b : StatusBoard) (type : ConditionType) (id : RouteId) : Option Bool :=
  (b.routes.get? id).map (·.isTrue type)

/-- Handing a status out changes no condition. -/
theorem isTrue_settled (b : StatusBoard) (s : RouteState) (type : ConditionType) :
    (b.settled s).isTrue type = s.isTrue type := by
  unfold settled
  split <;> rfl

theorem tells_report (b : StatusBoard) (now : Timestamp) (id id' : RouteId) (r : Report)
    (type : ConditionType) :
    (b.report now id r).tells type id' =
      if id' = id then (b.tells type id').map (r.verdict? type).getD else b.tells type id' := by
  unfold tells
  cases hs : b.routes.get? id with
  | none =>
    rw [report_of_unknown hs]
    split
    next h =>
      rw [h, hs]
      rfl
    · rfl
  | some s =>
    have hin := takesIn_report hs now r
    split
    next h =>
      rw [h, hin.state, hs, Option.map_some, Option.map_some, isTrue_settled,
        RouteState.isTrue_apply]
      rfl
    next h => rw [hin.others h]

/-- A route that is applied again keeps its conditions. -/
theorem tells_apply {b : StatusBoard} {id : RouteId} {type : ConditionType} {holds : Bool}
    (h : b.tells type id = some holds) (route : Route) :
    (b.apply route).tells type id = some holds := by
  unfold tells at h ⊢
  obtain ⟨s, hs, hholds⟩ := Option.map_eq_some_iff.1 h
  cases hid : route.id? with
  | none => rw [apply_of_no_id hid, hs, Option.map_some, hholds]
  | some id' =>
    have hin := takesIn_apply (b := b) hid
    by_cases hne : id = id'
    · subst hne
      rw [hin.state, Option.map_some, isTrue_settled]
      unfold adopted
      rw [hs]
      exact congrArg some hholds
    · rw [hin.others hne, hs, Option.map_some, hholds]

theorem tells_delete_of_ne (b : StatusBoard) {id id' : RouteId} (h : id ≠ id')
    (type : ConditionType) : (b.delete id').tells type id = b.tells type id := by
  unfold tells delete
  rw [SortedMap.get?_erase_of_ne _ h]

/-- A status that could not be written is handed out again, with the conditions that it has. -/
theorem tells_patchFailed (b : StatusBoard) (id id' : RouteId) (type : ConditionType) :
    (b.patchFailed id').tells type id = b.tells type id := by
  unfold tells
  rw [get?_patchFailed]
  split
  next h =>
    rw [h]
    cases b.routes.get? id' <;> rfl
  · rfl

end StatusBoard

/-! ## Deeds -/

/-- A deed that has no say in a condition of a route: it does not report on it, and does not
delete the route. -/
def Deed.Spares (type : ConditionType) (id : RouteId) : Deed → Prop
  | .report _ id' r => id = id' → r.verdict? type = none
  | .delete id' => id ≠ id'
  | .apply _ | .send | .written | .failed => True

instance (type : ConditionType) (id : RouteId) : DecidablePred (Deed.Spares type id)
  | .report _ id' r => inferInstanceAs (Decidable (id = id' → r.verdict? type = none))
  | .delete id' => inferInstanceAs (Decidable (id ≠ id'))
  | .apply _ | .send | .written | .failed => inferInstanceAs (Decidable True)

namespace Desk

variable {type : ConditionType} {id : RouteId} {holds : Bool}

theorem tells_deed (time : Timestamp → String) {d : Desk} {deed : Deed}
    (h : d.board.tells type id = some holds) (hspares : deed.Spares type id) :
    (d.step time deed).board.tells type id = some holds := by
  cases deed with
  | report now id' r =>
    change (d.board.report now id' r).tells type id = some holds
    rw [StatusBoard.tells_report]
    split
    next hid =>
      rw [h, hspares hid]
      rfl
    · exact h
  | apply route => exact StatusBoard.tells_apply h route
  | delete id' => exact (d.board.tells_delete_of_ne hspares type).trans h
  | send =>
    simp only [step]
    split <;> exact h
  | written =>
    simp only [step]
    cases d.sending <;> exact h
  | failed =>
    simp only [step]
    cases d.sending with
    | none => exact h
    | some u => exact (d.board.tells_patchFailed id u.id type).trans h

/-- What happens at a desk leaves a condition alone for as long as nobody reports on it. -/
theorem tells_deeds (time : Timestamp → String) {d : Desk} {deeds : List Deed}
    (h : d.board.tells type id = some holds) (hspares : ∀ deed ∈ deeds, deed.Spares type id) :
    (d.run time deeds).board.tells type id = some holds :=
  List.foldlRecOn (motive := fun d : Desk => d.board.tells type id = some holds) deeds _ h
    fun _ hd deed hmem => tells_deed time hd (hspares deed hmem)

end Desk

end HubFederation
