import Mathlib.Data.List.Forall2
import HubFederation.Proofs.Lookup
import HubFederation.Status.Outbox

/-!
# Merge patches

The control cluster takes a status in as a JSON merge patch (RFC 7386): members of the patch
replace those of the stored object, `null` takes a member away, and what the patch does not
name stays. A status leaves empty texts out, so a patch does not take a text away that was
written before.

* `member?_mergePatch`: what a patch makes of the members of an object.
* `same_mergePatch`: a patch with all members that were there leaves its own.
* `patch_eq_iff`: equal patches carry the same, but for times that are written alike.
-/
namespace HubFederation

namespace Json

def isNull : Json → Bool
  | .null => true
  | _ => false

def members : Json → List (String × Json)
  | .obj ms => ms
  | _ => []

/-- The member of an object. -/
def member? (j : Json) (name : String) : Option Json := j.members.lookup name

/-- Members with one of them set. -/
def setMember (name : String) (value : Json) : List (String × Json) → List (String × Json)
  | [] => [(name, value)]
  | m :: ms => if m.1 = name then (name, value) :: ms else m :: setMember name value ms

mutual

/-- What a patch makes of a value. -/
def mergePatch (target : Json) : Json → Json
  | .obj ms => .obj (mergeMembers target.members ms)
  | j => j

/-- What the members of a patch make of those of an object. -/
def mergeMembers (target : List (String × Json)) : List (String × Json) → List (String × Json)
  | [] => target
  | (name, value) :: ms =>
    mergeMembers
      (if value.isNull then target.filter fun m => m.1 ≠ name
        else setMember name (mergePatch ((target.lookup name).getD .null) value) target) ms

end

/-- Two objects have the same members, in whatever order. -/
def Same (a b : Json) : Prop := ∀ name, a.member? name = b.member? name

/-- Every member of `a` has a counterpart in `b`. -/
def Covers (b a : Json) : Prop := ∀ name, (a.member? name).isSome → (b.member? name).isSome

/-! ## Members -/

theorem lookup_setMember (name : String) (value : Json) (ms : List (String × Json))
    (name' : String) :
    (setMember name value ms).lookup name' =
      if name' = name then some value else ms.lookup name' := by
  induction ms with
  | nil =>
    unfold setMember
    rw [List.lookup_cons]
    split
    next h => rw [beq_iff_eq.1 h, if_pos rfl]
    next h => rw [if_neg (beq_eq_false_iff_ne.1 h)]
  | cons m ms ih =>
    unfold setMember
    by_cases hm : m.1 = name
    · rw [if_pos hm, List.lookup_cons, List.lookup_cons, hm]
      split
      next h => rw [beq_iff_eq.1 h, if_pos rfl]
      next h => rw [if_neg (beq_eq_false_iff_ne.1 h)]
    · rw [if_neg hm, List.lookup_cons, List.lookup_cons, ih]
      split
      next h => rw [beq_iff_eq.1 h, if_neg hm]
      · rfl

/-- What the members of a patch make of those of an object, name by name. -/
theorem lookup_mergeMembers {ms : List (String × Json)} (h : (ms.map (·.1)).Nodup)
    (target : List (String × Json)) (name : String) :
    (mergeMembers target ms).lookup name =
      match ms.lookup name with
      | none => target.lookup name
      | some value => if value.isNull then none
        else some (mergePatch ((target.lookup name).getD .null) value) := by
  induction ms generalizing target with
  | nil =>
    unfold mergeMembers
    rfl
  | cons m ms ih =>
    obtain ⟨name', value⟩ := m
    rw [List.map_cons, List.nodup_cons] at h
    unfold mergeMembers
    rw [ih h.2, List.lookup_cons]
    by_cases hname : name = name'
    · subst hname
      rw [lookup_eq_none h.1, beq_self_eq_true]
      simp only
      split
      · rw [lookup_filter_ne, if_pos rfl]
      · rw [lookup_setMember, if_pos rfl]
    · have hrest : (if value.isNull then target.filter fun m => m.1 ≠ name'
          else setMember name' (mergePatch ((target.lookup name').getD .null) value) target).lookup
            name = target.lookup name := by
        split
        · rw [lookup_filter_ne, if_neg hname]
        · rw [lookup_setMember, if_neg hname]
      rw [hrest, beq_eq_false_iff_ne.2 hname]

/-- A value that replaces whatever was there. -/
def Replaces (j : Json) : Prop := j.isNull = false ∧ ∀ target, mergePatch target j = j

theorem replaces_str (s : String) : Replaces (.str s) := ⟨rfl, fun _ => by unfold mergePatch; rfl⟩

theorem replaces_arr (items : List Json) : Replaces (.arr items) :=
  ⟨rfl, fun _ => by unfold mergePatch; rfl⟩

/-- A patch without inner objects replaces the members that it has and keeps the others. -/
theorem member?_mergePatch {ms : List (String × Json)} (h : (ms.map (·.1)).Nodup)
    (hreplaces : ∀ name value, ms.lookup name = some value → value.Replaces) (target : Json)
    (name : String) :
    (mergePatch target (.obj ms)).member? name = (ms.lookup name).or (target.member? name) := by
  unfold mergePatch member?
  rw [members, lookup_mergeMembers h]
  cases hm : ms.lookup name with
  | none => rfl
  | some value =>
    obtain ⟨hnull, hmerge⟩ := hreplaces name value hm
    simp only [hnull, hmerge, Bool.false_eq_true, if_false]
    rfl

theorem Covers.trans {a b c : Json} (h : Covers b a) (h' : Covers c b) : Covers c a :=
  fun name ha => h' name (h name ha)

/-! ## Objects whose members may be missing -/

theorem lookup_present {ms : List (String × Option Json)} (h : (ms.map (·.1)).Nodup)
    (name : String) :
    (ms.filterMap fun (k, v) => v.map (k, ·)).lookup name = (ms.lookup name).join := by
  induction ms with
  | nil => rfl
  | cons m ms ih =>
    obtain ⟨name', value⟩ := m
    rw [List.map_cons, List.nodup_cons] at h
    rw [List.filterMap_cons, List.lookup_cons]
    by_cases hname : name = name'
    · subst hname
      rw [beq_self_eq_true]
      cases value with
      | none => exact (ih h.2).trans (by rw [lookup_eq_none h.1]; rfl)
      | some value =>
        simp only [Option.map_some, List.lookup_cons, beq_self_eq_true]
        rfl
    · rw [beq_eq_false_iff_ne.2 hname]
      cases value with
      | none => exact ih h.2
      | some value =>
        simp only [Option.map_some, List.lookup_cons, beq_eq_false_iff_ne.2 hname]
        exact ih h.2

theorem member?_present {ms : List (String × Option Json)} (h : (ms.map (·.1)).Nodup)
    (name : String) : (present ms).member? name = (ms.lookup name).join :=
  lookup_present h name

theorem nodup_present {ms : List (String × Option Json)} (h : (ms.map (·.1)).Nodup) :
    ((present ms).members.map (·.1)).Nodup := by
  refine h.sublist ?_
  unfold present members
  induction ms with
  | nil => exact List.Sublist.slnil
  | cons m ms ih =>
    obtain ⟨name, value⟩ := m
    rw [List.filterMap_cons, List.map_cons]
    have ih := ih (List.nodup_cons.1 h).2
    cases value with
    | none => exact ih.cons name
    | some value => exact ih.cons_cons name

end Json

/-! ## Statuses -/

namespace RouteStatus

variable {time : Timestamp → String}

/-- A text that is left out where it is empty. -/
def textJson (t : String) : Option Json := if t = "" then none else some (.str t)

/-- The members of a status, and those that are left out. -/
def fields (time : Timestamp → String) (s : RouteStatus) : List (String × Option Json) :=
  [("phase", textJson s.phase), ("way", textJson s.way), ("export", textJson s.source),
    ("import", textJson s.target),
    ("lastSynchronizationTimestamp", s.lastSynced.map fun t => .str (time t)),
    ("conditions", some (.arr (s.conditions.map (Condition.toJson time))))]

theorem toJson_eq (time : Timestamp → String) (s : RouteStatus) :
    s.toJson time = .present (s.fields time) := rfl

theorem nodup_fields (time : Timestamp → String) (s : RouteStatus) :
    ((s.fields time).map (·.1)).Nodup := by
  change ["phase", "way", "export", "import", "lastSynchronizationTimestamp", "conditions"].Nodup
  decide

theorem member?_toJson (time : Timestamp → String) (s : RouteStatus) (name : String) :
    (s.toJson time).member? name = ((s.fields time).lookup name).join :=
  Json.member?_present (s.nodup_fields time) name

theorem replaces_textJson {t : String} {j : Json} (h : textJson t = some j) : j.Replaces := by
  unfold textJson at h
  split at h
  · cases h
  · cases h
    exact Json.replaces_str t

theorem isSome_textJson {t : String} : (textJson t).isSome ↔ t ≠ "" := by
  unfold textJson
  split
  next h => simp [h]
  next h => simp [h]

theorem textJson_injective {t t' : String} (h : textJson t = textJson t') : t = t' := by
  unfold textJson at h
  split at h <;> split at h
  next ht ht' => rw [ht, ht']
  · cases h
  · cases h
  · cases h
    rfl

/-- No member of a status is an object that a patch would go into. -/
theorem replaces_toJson {s : RouteStatus} {name : String} {value : Json}
    (h : (s.toJson time).members.lookup name = some value) : value.Replaces := by
  have h : ((s.fields time).lookup name).join = some value :=
    (s.member?_toJson time name).symm.trans h
  unfold fields at h
  simp only [List.lookup_cons] at h
  split at h
  · exact replaces_textJson h
  split at h
  · exact replaces_textJson h
  split at h
  · exact replaces_textJson h
  split at h
  · exact replaces_textJson h
  split at h
  · obtain ⟨t, -, rfl⟩ := Option.map_eq_some_iff.1 h
    exact Json.replaces_str (time t)
  split at h
  · cases h
    exact Json.replaces_arr _
  · cases h

/-- The members that a status has, or would have later. -/
structure Within (s s' : RouteStatus) : Prop where
  phase : s'.phase ≠ ""
  source : s'.source ≠ ""
  target : s'.target ≠ ""
  way : s.way ≠ "" → s'.way ≠ ""
  lastSynced : s.lastSynced.isSome → s'.lastSynced.isSome

theorem Within.covers {s s' : RouteStatus} (h : s.Within s') (time : Timestamp → String) :
    (s'.toJson time).Covers (s.toJson time) := by
  intro name hs
  rw [member?_toJson] at hs ⊢
  unfold fields at hs ⊢
  simp only [List.lookup_cons] at hs ⊢
  split at hs
  · exact isSome_textJson.2 h.phase
  split at hs
  · exact isSome_textJson.2 (h.way (isSome_textJson.1 hs))
  split at hs
  · exact isSome_textJson.2 h.source
  split at hs
  · exact isSome_textJson.2 h.target
  split at hs
  · have hlast := h.lastSynced (by simpa using hs)
    simpa using hlast
  split at hs
  · rfl
  · cases hs

theorem member?_mergePatch (s : RouteStatus) (target : Json) (name : String) :
    (target.mergePatch (s.toJson time)).member? name =
      ((s.toJson time).member? name).or (target.member? name) :=
  Json.member?_mergePatch (Json.nodup_present (s.nodup_fields time)) (fun _ _ => replaces_toJson)
    target name

/-- A status with all members that were there leaves its own. -/
theorem same_mergePatch {s : RouteStatus} {target : Json}
    (h : (s.toJson time).Covers target) :
    (target.mergePatch (s.toJson time)).Same (s.toJson time) := by
  intro name
  rw [member?_mergePatch]
  cases hs : (s.toJson time).member? name with
  | some value => rfl
  | none =>
    have hnone : (target.member? name).isSome = false := Bool.eq_false_iff.2 fun ht => by
      have hsome := h name ht
      rw [hs] at hsome
      cases hsome
    rw [Option.none_or]
    exact Option.not_isSome_iff_eq_none.1 (Bool.eq_false_iff.1 hnone)

theorem covers_mergePatch {s : RouteStatus} {target later : Json} (h : later.Covers target)
    (hs : later.Covers (s.toJson time)) : later.Covers (target.mergePatch (s.toJson time)) := by
  intro name hname
  rw [member?_mergePatch, Option.isSome_or, Bool.or_eq_true] at hname
  exact hname.elim (hs name) (h name)

end RouteStatus

/-! ## Stored objects -/

/-- The status of a stored object. -/
def Json.status (j : Json) : Json := (j.member? "status").getD .null

/-- A patch of an update merges its status into that of the object. -/
theorem Update.status_mergePatch (time : Timestamp → String) (u : Update) (object : Json) :
    (object.mergePatch (u.patch time)).status =
      object.status.mergePatch (u.status.toJson time) := by
  have hnodup : ((u.patch time).members.map (·.1)).Nodup :=
    show ["apiVersion", "kind", "name", "status"].Nodup by decide
  have hmerged : object.mergePatch (u.patch time) =
      .obj (Json.mergeMembers object.members (u.patch time).members) := by
    unfold Update.patch RouteStatus.patch Json.mergePatch
    rfl
  unfold Json.status Json.member?
  rw [hmerged, Json.members, Json.lookup_mergeMembers hnodup]
  rfl

/-! ## Statuses that are written alike -/

/-- The members of a condition, and one that may be left out. -/
def Condition.fields (time : Timestamp → String) (c : Condition) : List (String × Option Json) :=
  [("lastTransitionTime", some (.str (time c.lastTransition))), ("message", some (.str c.message)),
    ("observedGeneration", c.observedGeneration.map .num), ("reason", some (.str c.reason)),
    ("status", some (.str c.status)), ("type", some (.str c.type))]

/-- Conditions that differ at most in their times, which are written alike. -/
structure Condition.Alike (time : Timestamp → String) (c c' : Condition) : Prop where
  type : c.type = c'.type
  status : c.status = c'.status
  reason : c.reason = c'.reason
  message : c.message = c'.message
  lastTransition : time c.lastTransition = time c'.lastTransition
  observedGeneration : c.observedGeneration = c'.observedGeneration

theorem Condition.alike_of_toJson {time : Timestamp → String} {c c' : Condition}
    (h : c.toJson time = c'.toJson time) : c.Alike time c' := by
  have hnodup (c : Condition) : ((c.fields time).map (·.1)).Nodup := by
    change ["lastTransitionTime", "message", "observedGeneration", "reason", "status",
      "type"].Nodup
    decide
  have hname (name : String) : ((c.fields time).lookup name).join =
      ((c'.fields time).lookup name).join := by
    rw [← Json.member?_present (hnodup c), ← Json.member?_present (hnodup c')]
    exact congrArg (Json.member? · name) h
  have htime : some (Json.str (time c.lastTransition)) = some (.str (time c'.lastTransition)) :=
    hname "lastTransitionTime"
  have hmessage : some (Json.str c.message) = some (.str c'.message) := hname "message"
  have hgeneration : c.observedGeneration.map Json.num = c'.observedGeneration.map .num :=
    hname "observedGeneration"
  have hreason : some (Json.str c.reason) = some (.str c'.reason) := hname "reason"
  have hstatus : some (Json.str c.status) = some (.str c'.status) := hname "status"
  have htype : some (Json.str c.type) = some (.str c'.type) := hname "type"
  simp only [Option.some.injEq, Json.str.injEq] at htime hmessage hreason hstatus htype
  exact ⟨htype, hstatus, hreason, hmessage, htime,
    Option.map_injective (fun _ _ h => Json.num.inj h) hgeneration⟩

theorem Condition.Alike.toJson_eq {time : Timestamp → String} {c c' : Condition}
    (h : c.Alike time c') : c.toJson time = c'.toJson time := by
  unfold toJson
  rw [h.type, h.status, h.reason, h.message, h.lastTransition, h.observedGeneration]

/-- Statuses that differ at most in times, which are written alike. -/
structure RouteStatus.Alike (time : Timestamp → String) (s s' : RouteStatus) : Prop where
  phase : s.phase = s'.phase
  way : s.way = s'.way
  source : s.source = s'.source
  target : s.target = s'.target
  lastSynced : s.lastSynced.map time = s'.lastSynced.map time
  conditions : List.Forall₂ (Condition.Alike time) s.conditions s'.conditions

theorem RouteStatus.alike_of_toJson {time : Timestamp → String} {s s' : RouteStatus}
    (h : s.toJson time = s'.toJson time) : s.Alike time s' := by
  have hname (name : String) : ((s.fields time).lookup name).join =
      ((s'.fields time).lookup name).join := by
    rw [← s.member?_toJson, ← s'.member?_toJson, h]
  have hlast : s.lastSynced.map (fun t => Json.str (time t)) =
      s'.lastSynced.map (fun t => .str (time t)) := hname "lastSynchronizationTimestamp"
  have hconditions : some (Json.arr (s.conditions.map (Condition.toJson time))) =
      some (.arr (s'.conditions.map (Condition.toJson time))) := hname "conditions"
  simp only [Option.some.injEq, Json.arr.injEq] at hconditions
  refine ⟨textJson_injective (hname "phase"), textJson_injective (hname "way"),
    textJson_injective (hname "export"), textJson_injective (hname "import"), ?_, ?_⟩
  · refine Option.map_injective (f := Json.str) (fun _ _ h => Json.str.inj h) ?_
    rw [Option.map_map, Option.map_map]
    exact hlast
  · rw [← List.forall₂_eq_eq_eq, List.forall₂_map_left_iff,
      List.forall₂_map_right_iff] at hconditions
    exact hconditions.imp fun _ _ => Condition.alike_of_toJson

theorem RouteStatus.Alike.toJson_eq {time : Timestamp → String} {s s' : RouteStatus}
    (h : s.Alike time s') : s.toJson time = s'.toJson time := by
  have hlast : s.lastSynced.map (fun t => Json.str (time t)) =
      s'.lastSynced.map (fun t => .str (time t)) := by
    have hmap := congrArg (Option.map Json.str) h.lastSynced
    rwa [Option.map_map, Option.map_map] at hmap
  have hconditions : s.conditions.map (Condition.toJson time) =
      s'.conditions.map (Condition.toJson time) := by
    rw [← List.forall₂_eq_eq_eq, List.forall₂_map_left_iff, List.forall₂_map_right_iff]
    exact h.conditions.imp fun _ _ => Condition.Alike.toJson_eq
  rw [RouteStatus.toJson_eq, RouteStatus.toJson_eq]
  unfold fields
  rw [h.phase, h.way, h.source, h.target, hlast, hconditions]

/-- Two patches of a route are equal exactly if their statuses differ at most in times, which
are written alike. -/
theorem Update.patch_eq_iff {time : Timestamp → String} {u v : Update} (hid : u.id = v.id) :
    u.patch time = v.patch time ↔ u.status.Alike time v.status := by
  constructor
  · intro h
    have hstatus := congrArg Json.status h
    exact RouteStatus.alike_of_toJson hstatus
  · intro h
    unfold patch RouteStatus.patch
    rw [hid, h.toJson_eq]

end HubFederation
