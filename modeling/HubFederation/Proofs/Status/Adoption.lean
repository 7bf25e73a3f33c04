import HubFederation.Proofs.Status.History
import HubFederation.Proofs.Status.Written

/-!
# Adopting what was written

A board that starts anew takes over the statuses that were written before it. What it makes of a
status shows the status again, with times in whole seconds: the five conditions are filed under
their types, the derived one is left out and derived anew, and its time, which is the latest of
theirs, is the same whether parts of seconds are dropped before or after.

* `sound_step`: what holds of every state of a board, whatever happened to it.
* `render_readopted`: what is adopted is shown again.
* `adoption`: so nothing is handed out for a route whose status was written by another board.
-/
namespace HubFederation

/-- The derived condition is none of the five. -/
theorem ConditionType.text_ne_routeReady (type : ConditionType) : type.text ≠ "RouteReady" := by
  cases type <;> decide

theorem SortedMap.mem_values_iff {κ α : Type} [Key κ] {m : SortedMap κ α} {a : α} :
    a ∈ m.values ↔ ∃ k, m.get? k = some a := by
  unfold values
  rw [List.mem_map]
  constructor
  · rintro ⟨⟨k, a⟩, he, rfl⟩
    exact ⟨k, mem_entries_iff.1 he⟩
  · rintro ⟨k, hk⟩
    exact ⟨(k, a), mem_entries_iff.2 hk, rfl⟩

namespace RouteState

variable {s : RouteState}

/-! ## Sound states -/

/-- Conditions are filed under their types, and everything can be written and read back. -/
structure Sound (s : RouteState) : Prop where
  type : ∀ {type c}, s.conditions.get? type = some c → c.type = type.text
  conditions : ∀ {type c}, s.conditions.get? type = some c → c.Valid
  lastSynced : ∀ t, s.lastSynced = some t → t.Valid

/-- A state that adopts a status has the conditions of the status. -/
theorem mem_of_get?_foldl_adopt {cs : List Condition} {type : ConditionType} {c : Condition}
    (h : (cs.foldl adopt ∅).get? type = some c) : c ∈ cs ∧ c.type = type.text := by
  rw [get?_foldl_adopt, SortedMap.get?_empty, Option.or_none] at h
  obtain ⟨hmem, htype⟩ := List.mem_filter.1 (List.mem_of_getLast? h)
  exact ⟨hmem, of_decide_eq_true htype⟩

theorem sound_ofStatus {status : RouteStatus} (h : status.Valid) : (ofStatus status).Sound :=
  ⟨fun hc => (mem_of_get?_foldl_adopt hc).2,
    fun hc => h.conditions _ (mem_of_get?_foldl_adopt hc).1, h.lastSynced⟩

theorem sound_record (hs : s.Sound) {now : Timestamp} (hnow : now.Valid) (f : Finding) :
    (s.record now f).Sound := by
  have hget {type : ConditionType} {c : Condition}
      (hc : (s.record now f).conditions.get? type = some c) :
      c.type = type.text ∧ c.Valid := by
    unfold record at hc
    rcases SortedMap.get?_insert_eq_some.1 hc with ⟨htype, rfl⟩ | ⟨-, hc⟩
    · refine ⟨by rw [htype], ?_, nofun⟩
      simp only
      split
      next c hc =>
        split
        · exact hnow
        · exact (hs.conditions hc).lastTransition
      · exact hnow
    · exact ⟨hs.type hc, hs.conditions hc⟩
  refine ⟨fun hc => (hget hc).1, fun hc => (hget hc).2, fun t ht => ?_⟩
  unfold record at ht
  simp only at ht
  split at ht
  · cases ht
    exact hnow
  · exact hs.lastSynced t ht

theorem sound_apply (hs : s.Sound) {now : Timestamp} (hnow : now.Valid) (r : Report) :
    (s.apply now r).Sound := by
  have hfold (fs : List Finding) (s : RouteState) (hs : s.Sound) :
      (fs.foldl (record now) s).Sound := by
    induction fs generalizing s with
    | nil => exact hs
    | cons f fs ih => exact ih _ (sound_record hs hnow f)
  unfold apply
  cases r.way with
  | none => exact hfold r.findings s hs
  | some way =>
    exact hfold r.findings { s with way := ",".intercalate way }
      ⟨hs.type, hs.conditions, hs.lastSynced⟩

/-! ## What a sound state shows -/

theorem latest_whole (first : Condition) (rest : List Condition) :
    latest first.whole (rest.map .whole) = (latest first rest).whole := by
  have hfold (t : Timestamp) :
      (rest.map .whole).foldl (fun t (c : Condition) => t.max c.lastTransition) t.whole =
        (rest.foldl (fun t c => t.max c.lastTransition) t).whole := by
    induction rest generalizing t with
    | nil => rfl
    | cons c rest ih =>
      rw [List.map_cons, List.foldl_cons, List.foldl_cons, ← ih, Timestamp.whole_max]
      rfl
  exact hfold first.lastTransition

theorem valid_latest {first : Condition} {rest : List Condition}
    (h : ∀ c ∈ first :: rest, c.Valid) : (latest first rest).Valid := by
  obtain ⟨hfirst, hrest⟩ := List.forall_mem_cons.1 h
  have hfold (t : Timestamp) (ht : t.Valid) :
      (rest.foldl (fun t c => t.max c.lastTransition) t).Valid := by
    clear h
    induction rest generalizing t with
    | nil => exact ht
    | cons c rest ih =>
      obtain ⟨hc, hrest⟩ := List.forall_mem_cons.1 hrest
      have hmax : (t.max c.lastTransition).Valid := by
        unfold Timestamp.max
        split
        · exact hc.lastTransition
        · exact ht
      exact ih hrest _ hmax
  exact hfold _ hfirst.lastTransition

theorem type_routeReady (s : RouteState) (first : Condition) (rest : List Condition) :
    (s.routeReady first rest).type = "RouteReady" := by
  unfold routeReady
  split <;> rfl

/-- A state shows the conditions that it has, and the derived one. -/
theorem mem_conditions_render {c : Condition} :
    c ∈ s.render.conditions ↔ (∃ type, s.conditions.get? type = some c) ∨
      ∃ first rest, s.conditions.values = first :: rest ∧ c = s.routeReady first rest := by
  rw [← SortedMap.mem_values_iff]
  unfold render
  cases hvalues : s.conditions.values with
  | nil => simp
  | cons first rest =>
    simp only
    rw [List.mem_append, List.mem_singleton]
    refine or_congr Iff.rfl ⟨fun hc => ⟨first, rest, rfl, hc⟩, ?_⟩
    rintro ⟨_, _, ⟨⟩, hc⟩
    exact hc

/-- Of each type a state shows the condition that it has. -/
theorem mem_conditions_render_of_type (hs : s.Sound) {type : ConditionType} {c : Condition}
    (htype : c.type = type.text) :
    c ∈ s.render.conditions ↔ s.conditions.get? type = some c := by
  rw [mem_conditions_render]
  constructor
  · rintro (⟨type', hget⟩ | ⟨first, rest, -, rfl⟩)
    · rw [hs.type hget] at htype
      rwa [← ConditionType.text_injective htype]
    · exact absurd ((s.type_routeReady first rest).symm.trans htype).symm type.text_ne_routeReady
  · exact fun hget => .inl ⟨type, hget⟩

theorem valid_render (hs : s.Sound) : s.render.Valid := by
  refine ⟨hs.lastSynced, fun c hc => ?_⟩
  rcases mem_conditions_render.1 hc with ⟨type, hget⟩ | ⟨first, rest, hvalues, rfl⟩
  · exact hs.conditions hget
  · have hlatest : (latest first rest).Valid := by
      refine valid_latest fun c hc => ?_
      rw [← hvalues, SortedMap.mem_values_iff] at hc
      obtain ⟨type, hget⟩ := hc
      exact hs.conditions hget
    unfold routeReady
    split
    · exact ⟨hlatest, nofun⟩
    · exact ⟨hlatest, nofun⟩

/-! ## Adopting it -/

/-- A state that adopts what `s` shows, as it is written. -/
def readopted (s : RouteState) : RouteState :=
  { ofStatus s.render.whole with source := s.source, target := s.target }

theorem get?_readopted (hs : s.Sound) (type : ConditionType) :
    s.readopted.conditions.get? type = (s.conditions.get? type).map .whole := by
  have hadopted : s.readopted.conditions.get? type =
      ((s.render.conditions.map Condition.whole).filter fun c => c.type = type.text).getLast? :=
    (get?_foldl_adopt _ ∅ type).trans Option.or_none
  have hshown {c : Condition} (hc : c ∈ s.render.conditions.map .whole)
      (htype : c.type = type.text) : (s.conditions.get? type).map .whole = some c := by
    obtain ⟨c₀, hc₀, rfl⟩ := List.mem_map.1 hc
    have htype₀ : c₀.type = type.text := htype
    rw [(mem_conditions_render_of_type hs htype₀).1 hc₀, Option.map_some]
  rw [hadopted]
  cases hlast :
    ((s.render.conditions.map Condition.whole).filter fun c => c.type = type.text).getLast? with
  | some c =>
    obtain ⟨hc, htype⟩ := List.mem_filter.1 (List.mem_of_getLast? hlast)
    exact (hshown hc (of_decide_eq_true htype)).symm
  | none =>
    rw [List.getLast?_eq_none_iff, List.filter_eq_nil_iff] at hlast
    cases hget : s.conditions.get? type with
    | none => rfl
    | some c =>
      have hc := (mem_conditions_render_of_type hs (hs.type hget)).2 hget
      exact absurd (decide_eq_true (hs.type hget)) (hlast c.whole (List.mem_map_of_mem hc))

/-- What is adopted is shown again. -/
theorem render_readopted (hs : s.Sound) : s.readopted.render = s.render.whole := by
  have hvalues : s.readopted.conditions.values = s.conditions.values.map .whole := by
    rw [values_conditions, values_conditions, List.map_filterMap]
    exact List.filterMap_congr fun type _ => get?_readopted hs type
  have htrue : s.readopted.isTrue = s.isTrue := by
    funext type
    unfold isTrue
    rw [get?_readopted hs]
    cases s.conditions.get? type <;> rfl
  have hready : s.readopted.isReady = s.isReady := by
    unfold isReady
    rw [htrue]
  have hpending : s.readopted.pending = s.pending := by
    unfold pending
    rw [htrue]
  have hderived (first : Condition) (rest : List Condition) :
      s.readopted.routeReady first.whole (rest.map .whole) = (s.routeReady first rest).whole := by
    unfold routeReady
    rw [hready, hpending, latest_whole]
    split <;> rfl
  unfold render RouteStatus.whole
  rw [hready, hvalues]
  cases s.conditions.values with
  | nil => rfl
  | cons first rest =>
    simp only [List.map_cons, List.map_append, hderived]
    rfl

end RouteState

/-! ## Boards -/

namespace Deed

/-- A report whose time a clock can show, or a route whose status can have been read. -/
def Valid : Deed → Prop
  | .report now _ _ => now.Valid
  | .apply route => ∀ status, route.status = some status → status.Valid
  | .delete _ | .send | .written | .failed => True

/-- What a route joins, after a deed. -/
def joins (id : RouteId) (joined : Option RouteSpec) : Deed → Option RouteSpec
  | .apply route => if route.id? = some id then some route.spec else joined
  | .report .. | .delete _ | .send | .written | .failed => joined

/-- What a route joins, as it was applied last. -/
def joined? (id : RouteId) (deeds : List Deed) : Option RouteSpec := deeds.foldl (joins id) none

theorem joins_eq_self {b : StatusBoard} {id : RouteId} {joined : Option RouteSpec} {deed : Deed}
    (h : ∀ s, deed.subject? b ≠ some (id, s)) : deed.joins id joined = joined := by
  cases deed with
  | apply route =>
    refine if_neg fun hid => h (b.adopted route id) ?_
    rw [subject?, hid]
    rfl
  | report _ _ _ | delete _ | send | written | failed => rfl

end Deed

namespace RouteState

variable {s : RouteState} {joined : Option RouteSpec}

/-- A sound state that names both ends of what its route joins. -/
structure Reflects (joined : Option RouteSpec) (s : RouteState) : Prop where
  sound : s.Sound
  ends : ∃ spec, joined = some spec ∧ s.source = spec.source.text ∧ s.target = spec.target.text

theorem ends_apply (now : Timestamp) (s : RouteState) (r : Report) :
    (s.apply now r).source = s.source ∧ (s.apply now r).target = s.target := by
  have hfold (fs : List Finding) (s : RouteState) :
      (fs.foldl (record now) s).source = s.source ∧
        (fs.foldl (record now) s).target = s.target := by
    induction fs generalizing s with
    | nil => exact ⟨rfl, rfl⟩
    | cons f fs ih => exact ih (s.record now f)
  unfold apply
  cases r.way with
  | none => exact hfold r.findings s
  | some way => exact hfold r.findings { s with way := ",".intercalate way }

theorem Reflects.report (hs : s.Reflects joined) {now : Timestamp} (hnow : now.Valid)
    (r : Report) : (s.apply now r).Reflects joined := by
  obtain ⟨spec, hspec, hsource, htarget⟩ := hs.ends
  obtain ⟨hsource', htarget'⟩ := s.ends_apply now r
  exact ⟨sound_apply hs.sound hnow r, spec, hspec, hsource'.trans hsource, htarget'.trans htarget⟩

/-- What was handed out is of no account. -/
theorem Reflects.published (hs : s.Reflects joined) (published : Option RouteStatus) :
    RouteState.Reflects joined { s with published } :=
  ⟨⟨hs.sound.type, hs.sound.conditions, hs.sound.lastSynced⟩, hs.ends⟩

theorem Reflects.settled (hs : s.Reflects joined) (b : StatusBoard) :
    (b.settled s).Reflects joined := by
  unfold StatusBoard.settled
  split
  · exact hs.published _
  · exact hs

end RouteState

namespace Desk

variable {d : Desk} {id : RouteId} {joined : Option RouteSpec} {time : Timestamp → String}

/-- The state of a route, if it is known, is sound and names both ends of the route. -/
def Sound (d : Desk) (id : RouteId) (joined : Option RouteSpec) : Prop :=
  ∀ s, d.board.routes.get? id = some s → s.Reflects joined

theorem reflects_subject (hd : d.Sound id joined) {deed : Deed} (hvalid : deed.Valid)
    {s : RouteState} (hdeed : deed.subject? d.board = some (id, s)) :
    s.Reflects (deed.joins id joined) := by
  cases deed with
  | report now id' r =>
    obtain ⟨s₀, hs₀, heq⟩ := Option.map_eq_some_iff.1 hdeed
    cases heq
    exact (hd s₀ hs₀).report hvalid r
  | apply route =>
    obtain ⟨id', hid, heq⟩ := Option.map_eq_some_iff.1 hdeed
    cases heq
    have hsound : (d.board.adopted route id).Sound := by
      cases hs : d.board.routes.get? id with
      | some s =>
        have hold := (hd s hs).sound
        unfold StatusBoard.adopted
        rw [hs]
        exact ⟨hold.type, hold.conditions, hold.lastSynced⟩
      | none =>
        rw [adopted_of_unknown route hs]
        cases hstatus : route.status with
        | none => exact ⟨nofun, nofun, nofun⟩
        | some status =>
          have hnew := RouteState.sound_ofStatus (hvalid status hstatus)
          exact ⟨hnew.type, hnew.conditions, hnew.lastSynced⟩
    refine ⟨hsound, route.spec, if_pos hid, rfl, rfl⟩
  | delete _ | send | written | failed => cases hdeed

/-- Whatever happens, all states are sound. -/
theorem sound_step (hd : d.Sound id joined) {deed : Deed} (hvalid : deed.Valid) :
    (d.step time deed).Sound id (deed.joins id joined) := by
  have hstate := becomes_step time d id deed
  unfold Sound
  generalize (d.step time deed).board.routes.get? id = state at hstate ⊢
  intro s hs
  cases hstate with
  | told hdeed =>
    cases hs
    exact (reflects_subject hd hvalid hdeed).settled d.board
  | kept hother =>
    rw [Deed.joins_eq_self hother]
    exact hd s hs
  | deleted => cases hs
  | lost hother =>
    rw [Deed.joins_eq_self hother]
    obtain ⟨s₀, hs₀, rfl⟩ := Option.map_eq_some_iff.1 hs
    exact (hd s₀ hs₀).published none

theorem sound_run (hd : d.Sound id joined) {deeds : List Deed}
    (hvalid : ∀ deed ∈ deeds, deed.Valid) :
    (d.run time deeds).Sound id (deeds.foldl (Deed.joins id) joined) := by
  induction deeds generalizing d joined with
  | nil => exact hd
  | cons deed deeds ih =>
    obtain ⟨hdeed, hdeeds⟩ := List.forall_mem_cons.1 hvalid
    exact ih (sound_step hd hdeed) hdeeds

/-- A board that knows no routes takes a status over that a sound state shows, and hands nothing
out. -/
theorem apply_readopted {s : RouteState} (hs : s.Sound) {spec : RouteSpec}
    (hsource : s.source = spec.source.text) (htarget : s.target = spec.target.text)
    (id : RouteId) (outbox : Outbox) :
    let b := StatusBoard.apply ⟨∅, outbox⟩ ⟨some id.ns, id.name, spec, some s.render.whole⟩
    b.outbox = outbox ∧ b.status? id = some s.render.whole := by
  have hshown : s.readopted.published = some s.readopted.render := by
    rw [RouteState.render_readopted hs]
    rfl
  have hadopted : StatusBoard.adopted ⟨∅, outbox⟩
      ⟨some id.ns, id.name, spec, some s.render.whole⟩ id = s.readopted := by
    rw [adopted_of_unknown _ rfl, ← hsource, ← htarget]
    rfl
  have hboard : StatusBoard.apply ⟨∅, outbox⟩ ⟨some id.ns, id.name, spec, some s.render.whole⟩ =
      ⟨(∅ : SortedMap RouteId RouteState).insert id s.readopted, outbox⟩ := by
    change StatusBoard.publish ⟨(∅ : SortedMap RouteId RouteState).insert id
      (StatusBoard.adopted ⟨∅, outbox⟩ ⟨some id.ns, id.name, spec, _⟩ id), outbox⟩ id = _
    rw [hadopted]
    unfold StatusBoard.publish
    simp only [SortedMap.get?_insert_self]
    exact if_pos hshown
  rw [hboard]
  refine ⟨rfl, ?_⟩
  unfold StatusBoard.status?
  rw [SortedMap.get?_insert_self, Option.map_some, RouteState.render_readopted hs]

/-- Whatever a board went through, since it knew no routes: what it shows of a route is read back
from its text but for parts of seconds, and another board that knows no routes takes it over with
the route, shows the same, and hands nothing out. -/
theorem adoption (hempty : d.board.routes = ∅) {deeds : List Deed}
    (hvalid : ∀ deed ∈ deeds, deed.Valid) {status : RouteStatus}
    (hshown : (d.run time deeds).board.status? id = some status) (outbox : Outbox) :
    ∃ spec decoded, Deed.joined? id deeds = some spec ∧
      RouteStatus.read? status.written = some decoded ∧ decoded.written = status.written ∧
      let b := StatusBoard.apply ⟨∅, outbox⟩ ⟨some id.ns, id.name, spec, some decoded⟩
      b.outbox = outbox ∧ b.status? id = some decoded := by
  have hstart : d.Sound id none := fun s hs => by
    rw [hempty] at hs
    cases hs
  obtain ⟨s, hs, rfl⟩ := Option.map_eq_some_iff.1 hshown
  obtain ⟨hsound, spec, hspec, hsource, htarget⟩ := sound_run hstart hvalid s hs
  exact ⟨spec, s.render.whole, hspec, RouteStatus.read?_written (RouteState.valid_render hsound),
    RouteStatus.written_whole s.render, apply_readopted hsound hsource htarget id outbox⟩

/-- A route that comes with a status, and a report in the last nanosecond of a second. -/
def hurried : List Deed :=
  [.apply doubtful,
    .report ⟨20, 999999999⟩ lasting ⟨some ["east", "west"], [⟨.routeSynced, true, "Synced", ""⟩]⟩]

/-- What a board shows then. -/
def hurriedStatus : RouteStatus where
  phase := "NotReady"
  way := "east,west"
  source := "east/data/db"
  target := "west/data/db"
  lastSynced := some ⟨20, 999999999⟩
  conditions := [⟨"ExportHubReady", "True", "Ready", "", ⟨2, 0⟩, some 7⟩,
    ⟨"RouteSynced", "True", "Synced", "", ⟨20, 999999999⟩, none⟩,
    ⟨"RouteReady", "False", "NotReady", "PortsAllocated,ImportHubReady,PathReachable",
      ⟨20, 999999999⟩, none⟩]

theorem valid_doubtful (status : RouteStatus) (h : doubtful.status = some status) :
    status.Valid := by
  cases h
  refine ⟨fun t ht => ?_, ?_⟩
  · cases ht
    decide +kernel
  · simp only [List.forall_mem_cons]
    refine ⟨⟨by decide +kernel, ?_⟩, ⟨by decide +kernel, nofun⟩, ⟨by decide +kernel, nofun⟩, nofun⟩
    rintro g ⟨⟩
    decide

theorem valid_hurried : ∀ deed ∈ hurried, deed.Valid := by
  unfold hurried
  simp only [List.forall_mem_cons]
  exact ⟨valid_doubtful, (by decide +kernel : Timestamp.Valid ⟨20, 999999999⟩), nofun⟩

/-- The part of a second is lost, and nothing is handed out for that. -/
theorem adoption_hurried :
    narrow.board.routes = ∅ ∧ (∀ deed ∈ hurried, deed.Valid) ∧
      (narrow.run Timestamp.toText hurried).board.status? lasting = some hurriedStatus ∧
      hurriedStatus.whole ≠ hurriedStatus ∧
      ∃ spec decoded, Deed.joined? lasting hurried = some spec ∧
        RouteStatus.read? hurriedStatus.written = some decoded ∧
        decoded.written = hurriedStatus.written ∧
        let b := StatusBoard.apply ⟨∅, .ofCapacity 1⟩ ⟨"default", "db", spec, some decoded⟩
        b.outbox = .ofCapacity 1 ∧ b.status? lasting = some decoded := by
  have hshown : (narrow.run Timestamp.toText hurried).board.status? lasting =
    some hurriedStatus := by decide +kernel
  exact ⟨rfl, valid_hurried, hshown, by decide +kernel, adoption rfl valid_hurried hshown _⟩

end Desk

end HubFederation
