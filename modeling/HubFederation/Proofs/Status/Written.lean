import HubFederation.Proofs.Json.RoundTrip
import HubFederation.Proofs.Status.MergePatch
import HubFederation.Proofs.Time.RoundTrip

/-!
# Statuses that are written and read

A status is written with times in whole seconds and without empty texts. What is read back is
the status with its times in whole seconds: texts that are missing are empty.

* `ofObject?_present`: reading a record whose members may be missing.
* `Condition.Valid`, `RouteStatus.Valid`: what every condition and status is that was read.
* `read?_written`: a valid status is read back from its text, but for parts of seconds.
-/
namespace HubFederation

namespace Json

/-- A record with all its members, each of which may be missing. -/
theorem Record.ofObject?_present {names : List String} {ms : List (String × Option Json)}
    (hnames : ms.map (·.1) = names) (hnodup : names.Nodup) :
    ∃ r, ofObject? names (present ms) = some r ∧
      ∀ name, r.get? name = (ms.lookup name).join := by
  subst hnames
  have hknown : (present ms).members.filter (fun m => (ms.map (·.1)).contains m.1) =
      (present ms).members := by
    refine List.filter_eq_self.2 fun m hm => ?_
    obtain ⟨⟨name, value⟩, hmem, he⟩ := List.mem_filterMap.1 hm
    obtain ⟨j, -, rfl⟩ := Option.map_eq_some_iff.1 he
    exact List.elem_iff.2 (List.mem_map_of_mem hmem)
  have hobject : ofObject? (ms.map (·.1)) (present ms) =
      (let known := (present ms).members.filter fun m => (ms.map (·.1)).contains m.1
      if (known.map (·.1)).Nodup then some ⟨known⟩ else none) := rfl
  refine ⟨⟨(present ms).members⟩, ?_, member?_present hnodup⟩
  rw [hobject, hknown]
  exact if_pos (nodup_present hnodup)

theorem plain_present {ms : List (String × Option Json)}
    (h : ∀ m ∈ ms, ∀ j, m.2 = some j → Plain j) : Plain (present ms) := by
  refine .obj fun m hm => ?_
  obtain ⟨⟨name, value⟩, hmem, he⟩ := List.mem_filterMap.1 hm
  obtain ⟨j, hj, rfl⟩ := Option.map_eq_some_iff.1 he
  exact h _ hmem j hj

/-- What is written if it is there is read back if it was there. -/
theorem Record.optional_map {α β : Type} {r : Record} {name : String} {value : Json → Option β}
    {write : α → Json} {back : α → β} {a : Option α} (hmember : r.get? name = a.map write)
    (hnull : ∀ x, write x ≠ .null) (hread : ∀ x, a = some x → value (write x) = some (back x)) :
    r.optional name value = some (a.map back) := by
  unfold optional withDefault
  rw [hmember]
  cases a with
  | none => rfl
  | some x =>
    have hvalue : nullable? value (write x) = (value (write x)).map some :=
      nullable?.eq_2 value (write x) (hnull x)
    exact hvalue.trans (congrArg (Option.map some) (hread x rfl))

/-- What an optional member holds was read from it. -/
theorem Record.of_optional {α : Type} {r : Record} {name : String} {value : Json → Option α} {a : α}
    (h : r.optional name value = some (some a)) : ∃ j, value j = some a := by
  unfold optional withDefault at h
  split at h
  next j _ =>
    unfold nullable? at h
    split at h
    · cases h
    · obtain ⟨a', ha, heq⟩ := Option.map_eq_some_iff.1 h
      cases heq
      exact ⟨_, ha⟩
  · cases h

theorem of_int64? {j : Json} {i : Int} (h : int64? j = some i) :
    -9223372036854775808 ≤ i ∧ i ≤ 9223372036854775807 := by
  unfold int64? int? at h
  split at h
  · obtain ⟨hin, heq⟩ := Option.ite_none_right_eq_some.1 h
    cases heq
    exact hin
  · cases h

end Json

theorem Timestamp.ofJson?_toText {t : Timestamp} (h : t.Valid) :
    ofJson? (.str t.toText) = some t.whole := by
  unfold ofJson?
  rw [Json.string?, Option.bind_some, ofText?_toText h]

theorem Timestamp.valid_of_ofJson? {j : Json} {t : Timestamp} (h : ofJson? j = some t) :
    t.Valid := by
  obtain ⟨s, -, hs⟩ := Option.bind_eq_some_iff.1 h
  exact valid_of_ofText? hs

/-! ## Conditions -/

namespace Condition

/-- A condition that can be read: its time is valid, and what it observed is a number of 64
bits. -/
structure Valid (c : Condition) : Prop where
  lastTransition : c.lastTransition.Valid
  observedGeneration : ∀ g, c.observedGeneration = some g →
    -9223372036854775808 ≤ g ∧ g ≤ 9223372036854775807

/-- A condition with its time in whole seconds. -/
def whole (c : Condition) : Condition := { c with lastTransition := c.lastTransition.whole }

theorem toJson_whole (c : Condition) :
    c.whole.toJson Timestamp.toText = c.toJson Timestamp.toText := by
  unfold toJson whole
  simp only [Timestamp.toText_whole]

theorem ofJson?_toJson {c : Condition} (h : c.Valid) :
    ofJson? (c.toJson Timestamp.toText) = some c.whole := by
  have hnames : (c.fields Timestamp.toText).map (·.1) =
    ["lastTransitionTime", "message", "observedGeneration", "reason", "status", "type"] := rfl
  obtain ⟨r, hr, hget⟩ := Json.Record.ofObject?_present hnames (by decide)
  have htext {name value : String} (hmember : r.get? name = (some value).map .str) :
      (·.getD "") <$> r.optional name Json.string? = some value := by
    have hoptional : r.optional name Json.string? = some ((some value).map id) :=
      Json.Record.optional_map hmember nofun fun _ _ => rfl
    rw [hoptional]
    rfl
  have htype : (·.getD "") <$> r.optional "type" Json.string? = some c.type :=
    htext (hget _)
  have hstatus : (·.getD "") <$> r.optional "status" Json.string? = some c.status :=
    htext (hget _)
  have hreason : (·.getD "") <$> r.optional "reason" Json.string? = some c.reason :=
    htext (hget _)
  have hmessage : (·.getD "") <$> r.optional "message" Json.string? = some c.message :=
    htext (hget _)
  have htime : r.required "lastTransitionTime" Timestamp.ofJson? = some c.lastTransition.whole := by
    have hmember : r.get? "lastTransitionTime" = some (.str c.lastTransition.toText) := hget _
    unfold Json.Record.required
    rw [hmember, Option.bind_some, Timestamp.ofJson?_toText h.lastTransition]
  have hgeneration : r.optional "observedGeneration" Json.int64? = some c.observedGeneration := by
    have hmember : r.get? "observedGeneration" = c.observedGeneration.map .num := hget _
    rw [Json.Record.optional_map hmember nofun fun g hg => if_pos (h.observedGeneration g hg),
      Option.map_id']
  have hobject : Json.Record.ofObject?
      ["lastTransitionTime", "message", "observedGeneration", "reason", "status", "type"]
      (c.toJson Timestamp.toText) = some r := hr
  unfold ofJson?
  rw [hobject]
  simp only [htype, hstatus, hreason, hmessage, htime, hgeneration, Option.bind_eq_bind,
    Option.bind_some]
  rfl

/-- Whatever condition is read, it is valid. -/
theorem valid_of_ofJson? {j : Json} {c : Condition} (h : ofJson? j = some c) : c.Valid := by
  unfold ofJson? at h
  obtain ⟨r, -, h⟩ := Option.bind_eq_some_iff.1 h
  obtain ⟨type, -, h⟩ := Option.bind_eq_some_iff.1 h
  obtain ⟨status, -, h⟩ := Option.bind_eq_some_iff.1 h
  obtain ⟨reason, -, h⟩ := Option.bind_eq_some_iff.1 h
  obtain ⟨message, -, h⟩ := Option.bind_eq_some_iff.1 h
  obtain ⟨time, htime, h⟩ := Option.bind_eq_some_iff.1 h
  obtain ⟨generation, hgeneration, h⟩ := Option.bind_eq_some_iff.1 h
  cases h
  refine ⟨?_, fun g hg => ?_⟩
  · obtain ⟨j, -, hj⟩ := Option.bind_eq_some_iff.1 htime
    exact Timestamp.valid_of_ofJson? hj
  · rw [show generation = some g from hg] at hgeneration
    obtain ⟨j, hj⟩ := Json.Record.of_optional hgeneration
    exact Json.of_int64? hj

theorem plain_toJson (time : Timestamp → String) (c : Condition) : Json.Plain (c.toJson time) := by
  have htext (text : String) : ∀ j, some (Json.str text) = some j → Json.Plain j := by
    rintro j ⟨⟩
    exact .str text
  have hmembers : ∀ m ∈ c.fields time, ∀ j, m.2 = some j → Json.Plain j := by
    unfold fields
    simp only [List.forall_mem_cons]
    refine ⟨htext _, htext _, fun j hj => ?_, htext _, htext _, htext _, nofun⟩
    obtain ⟨g, -, rfl⟩ := Option.map_eq_some_iff.1 hj
    exact .num g
  exact Json.plain_present hmembers

end Condition

/-! ## Statuses -/

namespace RouteStatus

/-- A status that can be read. -/
structure Valid (s : RouteStatus) : Prop where
  lastSynced : ∀ t, s.lastSynced = some t → t.Valid
  conditions : ∀ c ∈ s.conditions, c.Valid

/-- A status with its times in whole seconds. -/
def whole (s : RouteStatus) : RouteStatus :=
  { s with
    lastSynced := s.lastSynced.map .whole
    conditions := s.conditions.map .whole }

theorem map_toJson_whole (cs : List Condition) :
    (cs.map .whole).map (Condition.toJson Timestamp.toText) =
      cs.map (Condition.toJson Timestamp.toText) := by
  rw [List.map_map]
  exact List.map_congr_left fun c _ => c.toJson_whole

theorem toJson_whole (s : RouteStatus) :
    s.whole.toJson Timestamp.toText = s.toJson Timestamp.toText := by
  have hlast : s.whole.lastSynced.map (fun t => Json.str t.toText) =
      s.lastSynced.map (fun t => Json.str t.toText) := by
    unfold whole
    rw [Option.map_map]
    exact Option.map_congr fun t _ => congrArg Json.str t.toText_whole
  have hconditions : s.whole.conditions.map (Condition.toJson Timestamp.toText) =
      s.conditions.map (Condition.toJson Timestamp.toText) := map_toJson_whole s.conditions
  rw [toJson_eq, toJson_eq]
  unfold fields
  rw [hlast, hconditions]
  rfl

theorem ofJson?_toJson {s : RouteStatus} (h : s.Valid) :
    ofJson? (s.toJson Timestamp.toText) = some s.whole := by
  have hnames : (s.fields Timestamp.toText).map (·.1) =
    ["phase", "way", "export", "import", "lastSynchronizationTimestamp", "conditions"] := rfl
  obtain ⟨r, hr, hget⟩ := Json.Record.ofObject?_present hnames (by decide)
  have htext {name value : String} (hv : r.get? name = textJson value) :
      r.withDefault name "" Json.string? = some value := by
    unfold Json.Record.withDefault
    rw [hv]
    unfold textJson
    by_cases hempty : value = ""
    · rw [if_pos hempty, hempty]
    · rw [if_neg hempty]
      rfl
  have hphase : r.withDefault "phase" "" Json.string? = some s.phase := htext (hget _)
  have hway : r.withDefault "way" "" Json.string? = some s.way := htext (hget _)
  have hsource : r.withDefault "export" "" Json.string? = some s.source := htext (hget _)
  have htarget : r.withDefault "import" "" Json.string? = some s.target := htext (hget _)
  have hlast : r.optional "lastSynchronizationTimestamp" Timestamp.ofJson? =
      some (s.lastSynced.map .whole) := by
    have hmember : r.get? "lastSynchronizationTimestamp" =
      s.lastSynced.map fun t => .str t.toText := hget _
    exact Json.Record.optional_map hmember nofun fun t ht =>
      Timestamp.ofJson?_toText (h.lastSynced t ht)
  have hconditions : r.withDefault "conditions" [] (Json.list? Condition.ofJson?) =
      some (s.conditions.map .whole) := by
    have hmember : r.get? "conditions" =
      some (.arr (s.conditions.map (Condition.toJson Timestamp.toText))) := hget _
    unfold Json.Record.withDefault
    rw [hmember]
    have hitems : (s.conditions.map .whole).map (Condition.toJson Timestamp.toText) =
        s.conditions.map (Condition.toJson Timestamp.toText) := map_toJson_whole s.conditions
    rw [← hitems]
    refine Json.list?_map_iff.2 fun c hc => ?_
    obtain ⟨c₀, hc₀, rfl⟩ := List.mem_map.1 hc
    rw [c₀.toJson_whole, Condition.ofJson?_toJson (h.conditions c₀ hc₀)]
  have hobject : Json.Record.ofJson?
      ["phase", "way", "export", "import", "lastSynchronizationTimestamp", "conditions"]
      (s.toJson Timestamp.toText) = some r := hr
  unfold ofJson?
  rw [hobject]
  simp only [hphase, hway, hsource, htarget, hlast, hconditions, Option.bind_eq_bind,
    Option.bind_some]
  rfl

theorem plain_toJson (time : Timestamp → String) (s : RouteStatus) :
    Json.Plain (s.toJson time) := by
  have htext (text : String) : ∀ j, textJson text = some j → Json.Plain j := by
    intro j hj
    unfold textJson at hj
    split at hj
    · cases hj
    · cases hj
      exact .str text
  have hmembers : ∀ m ∈ s.fields time, ∀ j, m.2 = some j → Json.Plain j := by
    unfold fields
    simp only [List.forall_mem_cons]
    refine ⟨htext _, htext _, htext _, htext _, fun j hj => ?_, fun j hj => ?_, nofun⟩
    · obtain ⟨t, -, rfl⟩ := Option.map_eq_some_iff.1 hj
      exact .str _
    · cases hj
      refine .arr fun j hj => ?_
      obtain ⟨c, -, rfl⟩ := List.mem_map.1 hj
      exact c.plain_toJson time
  exact Json.plain_present hmembers

/-- Whatever status is read, it is valid. -/
theorem valid_of_ofJson? {j : Json} {s : RouteStatus} (h : ofJson? j = some s) : s.Valid := by
  unfold ofJson? at h
  obtain ⟨r, -, h⟩ := Option.bind_eq_some_iff.1 h
  obtain ⟨phase, -, h⟩ := Option.bind_eq_some_iff.1 h
  obtain ⟨way, -, h⟩ := Option.bind_eq_some_iff.1 h
  obtain ⟨source, -, h⟩ := Option.bind_eq_some_iff.1 h
  obtain ⟨target, -, h⟩ := Option.bind_eq_some_iff.1 h
  obtain ⟨last, hlast, h⟩ := Option.bind_eq_some_iff.1 h
  obtain ⟨conditions, hconditions, h⟩ := Option.bind_eq_some_iff.1 h
  cases h
  refine ⟨fun t ht => ?_, fun c hc => ?_⟩
  · rw [show last = some t from ht] at hlast
    obtain ⟨j, hj⟩ := Json.Record.of_optional hlast
    exact Timestamp.valid_of_ofJson? hj
  · unfold Json.Record.withDefault at hconditions
    split at hconditions
    · unfold Json.list? at hconditions
      split at hconditions
      · obtain ⟨j, -, hj⟩ := mem_of_mapM hconditions hc
        exact Condition.valid_of_ofJson? hj
      · cases hconditions
    · cases hconditions
      cases hc

/-- What is read of the text of a status. -/
def read? (text : String) : Option RouteStatus := (Json.parse? text).bind ofJson?

/-- The text of a status. -/
def written (s : RouteStatus) : String := (s.toJson Timestamp.toText).compact

/-- A valid status is read back from its text, but for parts of seconds. -/
theorem read?_written {s : RouteStatus} (h : s.Valid) : read? s.written = some s.whole := by
  unfold read? written
  rw [Json.parse?_compact (s.plain_toJson _), Option.bind_some, ofJson?_toJson h]

/-- Parts of seconds are not written. -/
theorem written_whole (s : RouteStatus) : s.whole.written = s.written :=
  congrArg Json.compact s.toJson_whole

end RouteStatus

end HubFederation
