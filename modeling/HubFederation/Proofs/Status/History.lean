import Mathlib.Data.List.DropRight
import HubFederation.Proofs.Status.Agreement

/-!
# Statuses as functions of their histories

A board keeps the latest of everything it is told and changes it in place. What it shows of a
route is nevertheless a function of all that it was told since it came to know the route: the
status that the route brought with it, and the reports on it, whatever else happened in between.

* `History`, `History.status`: what a board was told of a route, and what it has to show.
* `follows_record`, `shows_step`: a state that shows its history still does so after a finding,
  and after every deed.
* `status_of_history`: so a board shows the history of a route.
-/
namespace HubFederation

/-- What a board was told of a route since it came to know it. -/
structure History where
  /-- The status that the route came with. -/
  seed : Option RouteStatus
  /-- What the route joins, as it was applied last. -/
  spec : RouteSpec
  /-- The ways that were reported, the oldest first. -/
  ways : List (List String)
  /-- The findings that were reported, the oldest first, each with the time of its report. -/
  findings : List (Timestamp × Finding)

namespace History

/-- A history that begins with a route. -/
def ofRoute (route : Route) : History := ⟨route.status, route.spec, [], []⟩

def report (h : History) (now : Timestamp) (r : Report) : History :=
  { h with ways := h.ways ++ r.way.toList, findings := h.findings ++ r.findings.map (now, ·) }

/-- The history of the route `id` after a deed. -/
def after (id : RouteId) (h : History) : Deed → History
  | .report now id' r => if id' = id then h.report now r else h
  | .apply route => if route.id? = some id then { h with spec := route.spec } else h
  | .delete _ | .send | .written | .failed => h

/-! ## What a history says -/

/-- The condition that the route came with; of several that have a type, the last one. -/
def seeded? (h : History) (type : ConditionType) : Option Condition :=
  h.seed.bind fun s => (s.conditions.filter (·.type = type.text)).getLast?

def about (h : History) (type : ConditionType) : List (Timestamp × Finding) :=
  h.findings.filter (·.2.type = type)

/-- The statuses that a condition had one after the other, with their times: first the one that
it came with. -/
def statuses (h : History) (type : ConditionType) : List (Timestamp × String) :=
  ((h.seeded? type).map fun c => (c.lastTransition, c.status)).toList ++
    (h.about type).map fun e => (e.1, e.2.status)

/-- When the last unbroken run of equal statuses began, of which `last` is the end. -/
def since (es : List (Timestamp × String)) (last : Timestamp × String) : Timestamp :=
  ((es.rtakeWhile (·.2 = last.2)).headD last).1

/-- A condition is as its last finding says, or as it came if there is none. -/
def condition? (h : History) (type : ConditionType) : Option Condition :=
  match (h.about type).getLast? with
  | some (now, f) => some
    { type := type.text
      status := f.status
      reason := f.reason
      message := f.message
      lastTransition := since (h.statuses type) (now, f.status)
      observedGeneration := none }
  | none => h.seeded? type

/-- The times of the findings by which a condition, whose status was `before` if there was one,
came to hold without having held. -/
def turns (before : Option String) : List (Timestamp × Finding) → List Timestamp
  | [] => []
  | e :: es =>
    (if before ≠ some "True" ∧ e.2.ready then [e.1] else []) ++ turns (some e.2.status) es

/-- The last time that the route came to be synchronized, or the one that it came with. -/
def lastSynced (h : History) : Option Timestamp :=
  (turns ((h.seeded? .routeSynced).map (·.status)) (h.about .routeSynced)).getLast?.or
    (h.seed.bind (·.lastSynced))

def way (h : History) : String :=
  match h.ways.getLast? with
  | some way => ",".intercalate way
  | none => (h.seed.map (·.way)).getD ""

def Holds (h : History) (type : ConditionType) : Prop :=
  (h.condition? type).map (·.status) = some "True"

instance (h : History) (type : ConditionType) : Decidable (h.Holds type) :=
  inferInstanceAs (Decidable (_ = _))

/-- All five conditions hold. -/
def AllHold (h : History) : Prop := ∀ type ∈ ConditionType.all, h.Holds type

instance (h : History) : Decidable h.AllHold :=
  inferInstanceAs (Decidable (∀ type ∈ ConditionType.all, h.Holds type))

/-- The types whose condition is missing or does not hold, in order. -/
def pending (h : History) : List ConditionType :=
  ConditionType.all.filter fun type => ¬ h.Holds type

/-- The conditions that there are, in order of their types. -/
def conditions (h : History) : List Condition := ConditionType.all.filterMap h.condition?

/-- Whether the route is ready, if there are conditions. -/
def routeReady (h : History) : List Condition :=
  match h.conditions with
  | [] => []
  | first :: rest =>
    let since := RouteState.latest first rest
    let pending := ",".intercalate (h.pending.map (·.text))
    if h.AllHold then [⟨"RouteReady", "True", "Ready", "", since, none⟩]
    else [⟨"RouteReady", "False", "NotReady", pending, since, none⟩]

/-- What a board has to show. -/
def status (h : History) : RouteStatus where
  phase := if h.AllHold then "RouteReady" else "NotReady"
  way := h.way
  source := h.spec.source.text
  target := h.spec.target.text
  lastSynced := h.lastSynced
  conditions := h.conditions ++ h.routeReady

/-! ## One finding more -/

/-- A run goes on if its status comes again, else a new one begins. -/
theorem since_concat (es : List (Timestamp × String)) (e : Timestamp × String) :
    since (es ++ [e]) e = match es.getLast? with
      | some last => if last.2 = e.2 then since es last else e.1
      | none => e.1 := by
  unfold since
  rw [List.rtakeWhile_concat, if_pos (decide_eq_true rfl)]
  rcases List.eq_nil_or_concat es with rfl | ⟨es, last, rfl⟩
  · rfl
  · rw [List.concat_eq_append, List.getLast?_concat]
    simp only
    by_cases h : last.2 = e.2
    · rw [if_pos h, h, List.rtakeWhile_concat, if_pos (decide_eq_true h)]
      cases es.rtakeWhile fun e' => decide (e'.2 = e.2) <;> rfl
    · rw [if_neg h, List.rtakeWhile_concat, if_neg (by simpa using h)]
      rfl

theorem turns_concat (before : Option String) (es : List (Timestamp × Finding))
    (e : Timestamp × Finding) :
    turns before (es ++ [e]) = turns before es ++
      if (es.getLast?.map (·.2.status)).or before ≠ some "True" ∧ e.2.ready then [e.1] else [] := by
  induction es generalizing before with
  | nil =>
    rw [List.nil_append, turns, turns, turns, List.append_nil]
    rfl
  | cons e' es ih =>
    rw [List.cons_append, turns, turns, ih, List.append_assoc, List.getLast?_cons]
    cases es.getLast? <;> rfl

variable {h : History}

/-- A history with one finding more. -/
def add (h : History) (now : Timestamp) (f : Finding) : History :=
  { h with findings := h.findings ++ [(now, f)] }

theorem about_add (h : History) (now : Timestamp) (f : Finding) (type : ConditionType) :
    (h.add now f).about type =
      if f.type = type then h.about type ++ [(now, f)] else h.about type := by
  unfold about add
  rw [List.filter_append]
  split
  next hf => rw [List.filter_cons_of_pos (by simpa using hf), List.filter_nil]
  next hf => rw [List.filter_cons_of_neg (by simpa using hf), List.filter_nil, List.append_nil]

theorem seeded?_add (h : History) (now : Timestamp) (f : Finding) (type : ConditionType) :
    (h.add now f).seeded? type = h.seeded? type := rfl

/-- The status of a condition is the last of its statuses, and it has it since that began. -/
theorem condition?_eq_some {type : ConditionType} {c : Condition}
    (hc : h.condition? type = some c) :
    ∃ last, (h.statuses type).getLast? = some last ∧ last.2 = c.status ∧
      since (h.statuses type) last = c.lastTransition := by
  unfold condition? at hc
  split at hc
  next now f hlast =>
    cases hc
    refine ⟨(now, f.status), ?_, rfl, rfl⟩
    unfold statuses
    rw [List.getLast?_append, List.getLast?_map, hlast]
    rfl
  next hnone =>
    rw [List.getLast?_eq_none_iff] at hnone
    unfold statuses
    rw [hnone, hc]
    refine ⟨(c.lastTransition, c.status), rfl, rfl, ?_⟩
    exact since_concat [] (c.lastTransition, c.status)

theorem condition?_eq_none {type : ConditionType} (hc : h.condition? type = none) :
    h.statuses type = [] := by
  unfold condition? at hc
  split at hc
  · cases hc
  next hnone =>
    rw [List.getLast?_eq_none_iff] at hnone
    unfold statuses
    rw [hnone, hc]
    rfl

theorem map_status_condition? (h : History) (type : ConditionType) :
    (h.condition? type).map (·.status) =
      ((h.about type).getLast?.map (·.2.status)).or ((h.seeded? type).map (·.status)) := by
  unfold condition?
  cases (h.about type).getLast? <;> rfl

/-- A finding settles its condition, which keeps its time if its status stays. -/
theorem condition?_add (h : History) (now : Timestamp) (f : Finding) (type : ConditionType) :
    (h.add now f).condition? type =
      if f.type = type then some
        { type := type.text
          status := f.status
          reason := f.reason
          message := f.message
          lastTransition := match h.condition? type with
            | some c => if c.status = f.status then c.lastTransition else now
            | none => now
          observedGeneration := none }
      else h.condition? type := by
  by_cases htype : f.type = type
  · have hstatuses : (h.add now f).statuses type = h.statuses type ++ [(now, f.status)] := by
      unfold statuses
      rw [about_add, seeded?_add, if_pos htype, List.map_append, List.append_assoc]
      rfl
    rw [if_pos htype, condition?, about_add, if_pos htype, List.getLast?_concat, hstatuses]
    simp only [since_concat]
    cases hc : h.condition? type with
    | none => rw [condition?_eq_none hc]; rfl
    | some c =>
      obtain ⟨last, hlast, hstatus, hsince⟩ := condition?_eq_some hc
      rw [hlast]
      simp only [hstatus, hsince]
  · rw [if_neg htype, condition?, condition?, statuses, statuses, about_add, seeded?_add,
      if_neg htype]

/-- A finding counts as a synchronization if it is the first to say so. -/
theorem lastSynced_add (h : History) (now : Timestamp) (f : Finding) :
    (h.add now f).lastSynced =
      if f.type = .routeSynced ∧ f.ready ∧
        (h.condition? .routeSynced).map (·.status) ≠ some "True" then some now
      else h.lastSynced := by
  unfold lastSynced
  rw [about_add, seeded?_add, map_status_condition?]
  by_cases htype : f.type = .routeSynced
  · rw [if_pos htype, turns_concat]
    split
    next hturn =>
      rw [if_pos ⟨htype, hturn.2, hturn.1⟩, List.getLast?_concat]
      rfl
    next hturn =>
      rw [if_neg fun hall => hturn ⟨hall.2.2, hall.2.1⟩, List.append_nil]
      rfl
  · rw [if_neg htype, if_neg fun hall => htype hall.1]
    rfl

end History

/-! ## What a state holds -/

/-- What a map holds under keys that ascend, if it holds nothing under others. -/
theorem SortedMap.values_eq_filterMap {κ α : Type} [Key κ] (m : SortedMap κ α) {ks : List κ}
    (hs : ks.Pairwise fun k k' => compare k k' = .lt) (hall : ∀ k ∈ m.keys, k ∈ ks) :
    m.values = ks.filterMap m.get? := by
  have hentries : m.entries = ks.filterMap fun k => (m.get? k).map (k, ·) := by
    refine eq_of_mem_iff (·.1) m.sorted ?_ fun e => ?_
    · refine List.pairwise_filterMap.2 (hs.imp fun hlt e he e' he' => ?_)
      obtain ⟨-, -, rfl⟩ := Option.map_eq_some_iff.1 he
      obtain ⟨-, -, rfl⟩ := Option.map_eq_some_iff.1 he'
      exact hlt
    · obtain ⟨k, a⟩ := e
      rw [mem_entries_iff, List.mem_filterMap]
      constructor
      · intro hget
        exact ⟨k, hall k (mem_keys_iff.2 (by rw [hget]; rfl)), by rw [hget]; rfl⟩
      · rintro ⟨k', -, he⟩
        obtain ⟨a', hget, heq⟩ := Option.map_eq_some_iff.1 he
        cases heq
        exact hget
  unfold values
  rw [hentries, List.map_filterMap]
  refine List.filterMap_congr fun k _ => ?_
  cases m.get? k <;> rfl

theorem ConditionType.mem_all (type : ConditionType) : type ∈ all := by
  cases type <;> decide

theorem ConditionType.ofText?_eq_some {text : String} {type : ConditionType} :
    ofText? text = some type ↔ text = type.text := by
  constructor
  · intro h
    have hfound := List.find?_some h
    exact (beq_iff_eq.1 hfound).symm
  · rintro rfl
    exact ofText?_text type

theorem ConditionType.text_injective {type type' : ConditionType} (h : type.text = type'.text) :
    type = type' := by
  have hsome := ofText?_text type
  rw [h, ofText?_text] at hsome
  exact (Option.some.inj hsome).symm

namespace RouteState

variable {s : RouteState} {h : History}

theorem values_conditions (s : RouteState) :
    s.conditions.values = ConditionType.all.filterMap s.conditions.get? :=
  s.conditions.values_eq_filterMap (by unfold ConditionType.all; decide)
    fun type _ => type.mem_all

/-- Of several conditions of a type, the last one is adopted. -/
theorem get?_foldl_adopt (cs : List Condition) (m : SortedMap ConditionType Condition)
    (type : ConditionType) :
    (cs.foldl adopt m).get? type =
      (cs.filter (·.type = type.text)).getLast?.or (m.get? type) := by
  have hadopt (c : Condition) (m : SortedMap ConditionType Condition) :
      (adopt m c).get? type = if c.type = type.text then some c else m.get? type := by
    unfold adopt
    split
    next type' htext =>
      rw [ConditionType.ofText?_eq_some] at htext
      rw [SortedMap.get?_insert_ite, htext]
      by_cases htype : type = type'
      · rw [if_pos htype, if_pos (by rw [htype])]
      · rw [if_neg htype, if_neg fun he => htype (ConditionType.text_injective he).symm]
    next hnone =>
      rw [if_neg fun he => ?_]
      rw [he, ConditionType.ofText?_text] at hnone
      cases hnone
  rw [read_foldl_filter (SortedMap.get? · type) hadopt]
  cases (cs.filter (·.type = type.text)).getLast? <;> rfl

/-- A state that holds what a history says. -/
structure Follows (s : RouteState) (h : History) : Prop where
  source : s.source = h.spec.source.text
  target : s.target = h.spec.target.text
  way : s.way = h.way
  conditions : ∀ type, s.conditions.get? type = h.condition? type
  lastSynced : s.lastSynced = h.lastSynced

/-- Such a state shows its history. -/
theorem Follows.render (hs : s.Follows h) : s.render = h.status := by
  have hvalues : s.conditions.values = h.conditions := by
    rw [s.values_conditions]
    exact List.filterMap_congr fun type _ => hs.conditions type
  have htrue (type : ConditionType) : s.isTrue type = decide (h.Holds type) := by
    rw [Bool.eq_iff_iff, decide_eq_true_iff]
    unfold isTrue History.Holds
    rw [hs.conditions]
    cases h.condition? type <;> simp
  have hready : s.isReady = decide h.AllHold := by
    rw [Bool.eq_iff_iff, decide_eq_true_iff]
    unfold isReady History.AllHold
    simp only [List.all_eq_true, htrue, decide_eq_true_iff]
  have hpending : s.pending = h.pending.map (·.text) := by
    unfold pending History.pending
    simp only [htrue, decide_not]
  unfold RouteState.render History.status
  rw [hs.source, hs.target, hs.way, hs.lastSynced, hready]
  simp only [decide_eq_true_eq]
  congr 1
  unfold History.routeReady
  rw [hvalues]
  cases h.conditions with
  | nil => rfl
  | cons first rest =>
    unfold routeReady
    rw [hready, hpending]
    simp only [decide_eq_true_eq]
    split <;> rfl

/-- A state takes a finding in as its history does. -/
theorem follows_record (hs : s.Follows h) (now : Timestamp) (f : Finding) :
    (s.record now f).Follows (h.add now f) := by
  have hchanges : s.changes f = decide ((h.condition? f.type).map (·.status) ≠ some f.status) := by
    rw [Bool.eq_iff_iff, decide_eq_true_iff]
    unfold changes
    rw [hs.conditions]
    cases h.condition? f.type <;> simp
  refine ⟨hs.source, hs.target, hs.way, fun type => ?_, ?_⟩
  · unfold record
    simp only
    rw [SortedMap.get?_insert_ite, History.condition?_add]
    by_cases htype : f.type = type
    · subst htype
      rw [if_pos rfl, if_pos rfl, hs.conditions, hchanges]
      cases h.condition? f.type with
      | none => rfl
      | some c => by_cases hc : c.status = f.status <;> simp [hc]
    · rw [if_neg (Ne.symm htype), if_neg htype, hs.conditions]
  · unfold record
    simp only
    rw [History.lastSynced_add, hchanges, hs.lastSynced]
    refine if_congr ?_ rfl rfl
    rw [Bool.and_eq_true, Bool.and_eq_true, decide_eq_true_iff, decide_eq_true_iff, and_assoc,
      and_comm, and_assoc]
    refine and_congr_right fun htype => and_congr_right fun hready => ?_
    rw [htype, Finding.status, if_pos hready]

theorem follows_foldl_record (hs : s.Follows h) (now : Timestamp) (fs : List Finding) :
    (fs.foldl (record now) s).Follows { h with findings := h.findings ++ fs.map (now, ·) } := by
  induction fs generalizing s h with
  | nil =>
    rw [List.map_nil, List.append_nil]
    exact hs
  | cons f fs ih =>
    have hrest := ih (follows_record hs now f)
    unfold History.add at hrest
    rwa [List.append_assoc] at hrest

theorem follows_apply (hs : s.Follows h) (now : Timestamp) (r : Report) :
    (s.apply now r).Follows (h.report now r) := by
  have hway : RouteState.Follows
      (match r.way with
        | some way => { s with way := ",".intercalate way }
        | none => s)
      { h with ways := h.ways ++ r.way.toList } := by
    cases r.way with
    | none =>
      rw [Option.toList_none, List.append_nil]
      exact hs
    | some way =>
      refine ⟨hs.source, hs.target, ?_, hs.conditions, hs.lastSynced⟩
      unfold History.way
      rw [Option.toList_some, List.getLast?_concat]
  exact follows_foldl_record hway now r.findings

theorem Follows.settled (hs : s.Follows h) (b : StatusBoard) : (b.settled s).Follows h := by
  unfold StatusBoard.settled
  split
  · exact ⟨hs.source, hs.target, hs.way, hs.conditions, hs.lastSynced⟩
  · exact hs

end RouteState

/-! ## What a board shows -/

namespace Desk

variable {d : Desk} {id : RouteId} {h : History} {time : Timestamp → String}

/-- A route is known, and its state holds what its history says. -/
def Shows (d : Desk) (id : RouteId) (h : History) : Prop :=
  ∃ s, d.board.routes.get? id = some s ∧ s.Follows h

/-- A route that was not known begins its history. -/
theorem follows_adopted {b : StatusBoard} {route : Route} (hnew : b.routes.get? id = none) :
    (b.adopted route id).Follows (.ofRoute route) := by
  rw [adopted_of_unknown route hnew]
  cases hseed : route.status with
  | none =>
    refine ⟨rfl, rfl, ?_, fun type => ?_, ?_⟩
    · unfold History.way History.ofRoute
      rw [hseed]
      rfl
    · unfold History.condition? History.seeded? History.ofRoute
      rw [hseed]
      rfl
    · unfold History.lastSynced History.ofRoute
      rw [hseed]
      rfl
  | some status =>
    refine ⟨rfl, rfl, ?_, fun type => ?_, ?_⟩
    · unfold History.way History.ofRoute
      rw [hseed]
      rfl
    · unfold History.condition? History.seeded? History.ofRoute
      rw [hseed]
      exact (RouteState.get?_foldl_adopt status.conditions ∅ type).trans (Option.or_none)
    · unfold History.lastSynced History.ofRoute
      rw [hseed]
      rfl

/-- What a deed tells of a route becomes part of its history. -/
theorem follows_subject {s s' : RouteState} (hs : d.board.routes.get? id = some s)
    (hfollows : s.Follows h) {deed : Deed} (hdeed : deed.subject? d.board = some (id, s')) :
    s'.Follows (h.after id deed) := by
  cases deed with
  | report now id' r =>
    obtain ⟨s₀, hs₀, heq⟩ := Option.map_eq_some_iff.1 hdeed
    cases heq
    cases hs.symm.trans hs₀
    rw [History.after, if_pos rfl]
    exact RouteState.follows_apply hfollows now r
  | apply route =>
    obtain ⟨id', hid, heq⟩ := Option.map_eq_some_iff.1 hdeed
    cases heq
    rw [History.after, if_pos hid]
    unfold StatusBoard.adopted
    rw [hs]
    exact ⟨rfl, rfl, hfollows.way, hfollows.conditions, hfollows.lastSynced⟩
  | delete _ | send | written | failed => cases hdeed

/-- A deed that tells nothing of a route leaves its history as it was. -/
theorem after_eq_self {s : RouteState} (hs : d.board.routes.get? id = some s) {deed : Deed}
    (hdeed : ∀ s', deed.subject? d.board ≠ some (id, s')) : h.after id deed = h := by
  cases deed with
  | report now id' r =>
    refine if_neg fun hid => hdeed (s.apply now r) ?_
    rw [hid, Deed.subject?, hs]
    rfl
  | apply route =>
    refine if_neg fun hid => hdeed (d.board.adopted route id) ?_
    rw [Deed.subject?, hid]
    rfl
  | delete _ | send | written | failed => rfl

/-- Whatever happens, a state goes on to hold what its history says, as long as its route is
known. -/
theorem shows_step (hd : d.Shows id h) {deed : Deed} (hkept : deed ≠ .delete id) :
    (d.step time deed).Shows id (h.after id deed) := by
  obtain ⟨s, hs, hfollows⟩ := hd
  have hstate := becomes_step time d id deed
  unfold Shows
  generalize (d.step time deed).board.routes.get? id = state at hstate ⊢
  cases hstate with
  | told hdeed => exact ⟨_, rfl, (follows_subject hs hfollows hdeed).settled d.board⟩
  | kept hother =>
    rw [after_eq_self hs hother]
    exact ⟨s, hs, hfollows⟩
  | deleted hdelete => exact absurd hdelete hkept
  | lost hother =>
    rw [after_eq_self hs hother, hs]
    exact ⟨_, rfl, hfollows.source, hfollows.target, hfollows.way, hfollows.conditions,
      hfollows.lastSynced⟩

theorem shows_run (hd : d.Shows id h) {deeds : List Deed} (hkept : .delete id ∉ deeds) :
    (d.run time deeds).Shows id (deeds.foldl (History.after id) h) := by
  induction deeds generalizing d h with
  | nil => exact hd
  | cons deed deeds ih =>
    rw [List.mem_cons, not_or] at hkept
    exact ih (shows_step hd (Ne.symm hkept.1)) hkept.2

theorem Shows.status? (hd : d.Shows id h) : d.board.status? id = some h.status := by
  obtain ⟨s, hs, hfollows⟩ := hd
  rw [StatusBoard.status?, hs, Option.map_some, hfollows.render]

/-- From the time that a route is applied first, and for as long as it is not deleted, a board
shows of it what its history says, whatever else happens. -/
theorem status_of_history {route : Route} (hid : route.id? = some id)
    (hnew : d.board.routes.get? id = none) {deeds : List Deed} (hkept : .delete id ∉ deeds) :
    (d.run time (.apply route :: deeds)).board.status? id =
      some (deeds.foldl (History.after id) (.ofRoute route)).status := by
  have hfirst : (d.step time (.apply route)).Shows id (.ofRoute route) :=
    ⟨_, (StatusBoard.takesIn_apply hid).state, (follows_adopted hnew).settled d.board⟩
  exact (shows_run hfirst hkept).status?

/-- A route that comes with a status: there is a condition of no known type, and one that
neither holds nor fails. -/
def doubtful : Route :=
  { lastingRoute with
    status := some
      { phase := "NotReady"
        way := "east,west"
        source := "east/data/db"
        target := "west/data/db"
        lastSynced := some ⟨1, 0⟩
        conditions := [⟨"ExportHubReady", "True", "Ready", "", ⟨2, 0⟩, some 7⟩,
          ⟨"Odd", "True", "", "", ⟨2, 0⟩, none⟩,
          ⟨"RouteSynced", "Unknown", "", "", ⟨3, 0⟩, none⟩] } }

/-- The second report says first that the route is not synchronized, then that it is. -/
def flickering : List Deed :=
  [.report ⟨10, 0⟩ lasting ⟨none, [⟨.exportHubReady, true, "Dialed", ""⟩,
      ⟨.routeSynced, true, "Synced", ""⟩]⟩,
    .send, .failed, .apply lastingRoute,
    .report ⟨20, 0⟩ lasting ⟨some ["east", "north", "west"],
      [⟨.routeSynced, false, "Late", ""⟩, ⟨.routeSynced, true, "Synced", "at last"⟩]⟩]

/-- One condition keeps the time that it came with, the other has turned twice since. -/
theorem status_of_history_flickering :
    doubtful.id? = some lasting ∧ narrow.board.routes.get? lasting = none ∧
      .delete lasting ∉ flickering ∧
      (narrow.run Timestamp.toText (.apply doubtful :: flickering)).board.status? lasting = some
        { phase := "NotReady"
          way := "east,north,west"
          source := "east/data/db"
          target := "west/data/db"
          lastSynced := some ⟨20, 0⟩
          conditions := [⟨"ExportHubReady", "True", "Dialed", "", ⟨2, 0⟩, none⟩,
            ⟨"RouteSynced", "True", "Synced", "at last", ⟨20, 0⟩, none⟩,
            ⟨"RouteReady", "False", "NotReady", "PortsAllocated,ImportHubReady,PathReachable",
              ⟨20, 0⟩, none⟩] } := by
  have hkept : .delete lasting ∉ flickering := by
    unfold flickering
    simp
  exact ⟨rfl, rfl, hkept, (status_of_history rfl rfl hkept).trans (by decide +kernel)⟩

end Desk

end HubFederation
