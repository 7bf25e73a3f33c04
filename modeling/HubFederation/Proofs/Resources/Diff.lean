import HubFederation.Resources

/-!
# The difference of two sets of ConfigMaps

`Resources.diff` lists the calls that turn one value into another: first what has to be
applied, then what has to be deleted.

* `get?_run_diff`: the calls of a difference, of which some fail, leave what failed as it
  was and make the rest as it shall be.
* `diff_retry`: what is still to be done after that are the calls that failed.
* `diff_exact`: without failures the calls may come in any order, and none of them is spare.
-/
namespace HubFederation

/-- A call that changes a hub. -/
inductive Call where
  | apply (hub : String) (cm : ConfigMap)
  | delete (hub name : String)
  deriving DecidableEq

namespace Call

def hub : Call → String
  | apply hub _ => hub
  | delete hub _ => hub

/-- The name of the ConfigMap that is applied or deleted. -/
def name : Call → String
  | apply _ cm => cm.key
  | delete _ name => name

/-- What the call leaves under its name. -/
def result : Call → Option ConfigMap
  | apply _ cm => some cm
  | delete _ _ => none

/-- What the call makes of what is on the hubs. -/
def run (r : Resources) : Call → Resources
  | apply hub cm => r.insert hub cm
  | delete hub name => r.remove hub name

/-- The call as it runs where calls on some ConfigMaps fail. -/
def runUnless (fails : String → String → Bool) (r : Resources) (c : Call) : Resources :=
  if fails c.hub c.name then r else c.run r

theorem get?_run (r : Resources) (c : Call) (hub name : String) :
    (c.run r).get? hub name = if hub = c.hub ∧ name = c.name then c.result else r.get? hub name := by
  cases c with
  | apply hub' cm => exact Resources.get?_insert ..
  | delete hub' name' => exact Resources.get?_remove ..

theorem get?_runUnless (fails : String → String → Bool) (r : Resources) (c : Call)
    (hub name : String) :
    (c.runUnless fails r).get? hub name =
      if fails hub name = false ∧ hub = c.hub ∧ name = c.name then c.result
      else r.get? hub name := by
  unfold runUnless
  by_cases hp : hub = c.hub ∧ name = c.name
  · obtain ⟨rfl, rfl⟩ := hp
    by_cases hf : fails c.hub c.name <;> simp [hf, get?_run]
  · have hno : ¬ (fails hub name = false ∧ hub = c.hub ∧ name = c.name) := fun h => hp h.2
    rw [if_neg hno]
    split
    · rfl
    · rw [get?_run, if_neg hp]

end Call

namespace Resources

/-! ## What a difference lists -/

theorem mem_toApply {r next : Resources} {hub : String} {cm : ConfigMap} :
    (hub, cm) ∈ r.toApply next ↔
      next.get? hub cm.key = some cm ∧ r.get? hub cm.key ≠ some cm := by
  unfold toApply
  rw [List.mem_filter, mem_toList]
  simp

theorem mem_toDelete {r next : Resources} {hub name : String} :
    (hub, name) ∈ r.toDelete next ↔ r.get? hub name ≠ none ∧ next.get? hub name = none := by
  unfold toDelete
  rw [List.mem_map]
  constructor
  · intro ⟨⟨hub', cm⟩, h, he⟩
    cases he
    rw [List.mem_filter, mem_toList] at h
    exact ⟨by simp [h.1], by simpa using h.2⟩
  · intro ⟨hr, hn⟩
    obtain ⟨cm, hcm⟩ := Option.ne_none_iff_exists'.1 hr
    have hkey := key_of_get? hcm
    refine ⟨(hub, cm), List.mem_filter.2 ⟨mem_toList.2 (hkey ▸ hcm), ?_⟩, by simp [hkey]⟩
    simp [hkey, hn]

theorem sorted_toDelete (r next : Resources) :
    (r.toDelete next).Pairwise fun a b => compare a b = .lt := by
  unfold toDelete
  exact List.pairwise_map.2 (r.sorted_toList.sublist List.filter_sublist)

/-- The calls that turn `r` into `next`. -/
def diff (r next : Resources) : List Call :=
  (r.toApply next).map (fun e => .apply e.1 e.2) ++ (r.toDelete next).map fun e => .delete e.1 e.2

/-- A difference holds the calls that change something, each with what shall be there. -/
theorem mem_diff {r next : Resources} {c : Call} :
    c ∈ r.diff next ↔ next.get? c.hub c.name = c.result ∧ r.get? c.hub c.name ≠ c.result := by
  unfold diff
  rw [List.mem_append, List.mem_map, List.mem_map]
  constructor
  · intro hc
    rcases hc with ⟨⟨hub, cm⟩, h, rfl⟩ | ⟨⟨hub, name⟩, h, rfl⟩
    · exact mem_toApply.1 h
    · exact (mem_toDelete.1 h).symm
  · intro ⟨hn, hr⟩
    cases c with
    | apply hub cm => exact .inl ⟨(hub, cm), mem_toApply.2 ⟨hn, hr⟩, rfl⟩
    | delete hub name => exact .inr ⟨(hub, name), mem_toDelete.2 ⟨hr, hn⟩, rfl⟩

/-- What differs is called for. -/
theorem exists_mem_diff {r next : Resources} {hub name : String}
    (h : r.get? hub name ≠ next.get? hub name) :
    ∃ c ∈ r.diff next, c.hub = hub ∧ c.name = name := by
  cases hn : next.get? hub name with
  | none =>
    rw [hn] at h
    exact ⟨.delete hub name, mem_diff.2 ⟨hn, h⟩, rfl, rfl⟩
  | some cm =>
    have hkey := key_of_get? hn
    rw [hn] at h
    exact ⟨.apply hub cm, mem_diff.2 ⟨by rwa [Call.name, hkey], by rwa [Call.name, hkey]⟩, rfl, hkey⟩

/-- What has exactly the part of `next` that is on some hubs is turned into `next` by applying the
rest. -/
theorem diff_of_part {r next : Resources} (known : String → Bool)
    (h : ∀ hub name, r.get? hub name = if known hub then next.get? hub name else none) :
    r.diff next = (next.toList.filter fun e => !known e.1).map fun e => .apply e.1 e.2 := by
  have happly : r.toApply next = next.toList.filter fun e => !known e.1 := by
    unfold toApply
    refine List.filter_congr fun e he => ?_
    rw [mem_toList] at he
    cases hk : known e.1 <;> simp [h, hk, he]
  have hdelete : r.toDelete next = [] := by
    refine List.eq_nil_iff_forall_not_mem.2 fun ⟨hub, name⟩ hmem => ?_
    obtain ⟨hhere, hgone⟩ := mem_toDelete.1 hmem
    rw [h] at hhere
    split at hhere
    · exact hhere hgone
    · exact hhere rfl
  unfold diff
  rw [happly, hdelete, List.map_nil, List.append_nil]

/-! ## Calls of which some fail -/

section
variable {fails : String → String → Bool} {next : Resources}

/-- Calls that all aim at `next` leave `next` wherever one of them worked. -/
theorem get?_run_toward (hub name : String) {calls : List Call} {r : Resources}
    (h : ∀ c ∈ calls, next.get? c.hub c.name = c.result) :
    (calls.foldl (Call.runUnless fails) r).get? hub name =
      if fails hub name = false ∧ ∃ c ∈ calls, c.hub = hub ∧ c.name = name
      then next.get? hub name else r.get? hub name := by
  induction calls generalizing r with
  | nil => simp
  | cons c calls ih =>
    rw [List.foldl_cons, ih fun c' hc => h c' (List.mem_cons_of_mem _ hc), Call.get?_runUnless]
    have hc := h c (List.mem_cons_self ..)
    by_cases hp : hub = c.hub ∧ name = c.name
    · obtain ⟨rfl, rfl⟩ := hp
      by_cases hf : fails c.hub c.name <;> simp [hf, hc]
    · have hcons : (∃ c' ∈ c :: calls, c'.hub = hub ∧ c'.name = name) ↔
          ∃ c' ∈ calls, c'.hub = hub ∧ c'.name = name := by grind
      have hno : ¬ (fails hub name = false ∧ hub = c.hub ∧ name = c.name) := fun h => hp h.2
      rw [if_neg hno]
      simp only [hcons]

/-- Calls about other ConfigMaps leave one as it is. -/
theorem get?_run_elsewhere {hub name : String} {calls : List Call} {r : Resources}
    (h : ∀ c ∈ calls, ¬ (c.hub = hub ∧ c.name = name)) :
    (calls.foldl (Call.runUnless fails) r).get? hub name = r.get? hub name := by
  induction calls generalizing r with
  | nil => rfl
  | cons c calls ih =>
    have hc : ¬ (fails hub name = false ∧ hub = c.hub ∧ name = c.name) := fun ⟨_, hhub, hname⟩ =>
      h c (List.mem_cons_self ..) ⟨hhub.symm, hname.symm⟩
    rw [List.foldl_cons, ih fun c' hc' => h c' (List.mem_cons_of_mem _ hc'), Call.get?_runUnless,
      if_neg hc]

/-- The calls of a difference make everything as it shall be but for what failed. -/
theorem get?_run_diff (r : Resources) (hub name : String) :
    ((r.diff next).foldl (Call.runUnless fails) r).get? hub name =
      if fails hub name then r.get? hub name else next.get? hub name := by
  rw [get?_run_toward hub name fun c hc => (mem_diff.1 hc).1]
  by_cases hf : fails hub name
  · simp [hf]
  · rw [if_neg hf]
    split
    · rfl
    next h =>
      exact Decidable.byContradiction fun hne => h ⟨by simpa using hf, exists_mem_diff hne⟩

/-- If none of the calls of a difference fails, everything is as it shall be. -/
theorem run_diff_of_served {r : Resources} (h : ∀ c ∈ r.diff next, fails c.hub c.name = false) :
    (r.diff next).foldl (Call.runUnless fails) r = next := by
  refine ext_get? fun hub name => ?_
  rw [get?_run_diff]
  by_cases hf : fails hub name = true
  · rw [if_pos hf]
    refine Decidable.byContradiction fun hne => ?_
    obtain ⟨c, hc, rfl, rfl⟩ := exists_mem_diff hne
    rw [h c hc] at hf
    cases hf
  · rw [if_neg hf]

/-- If what failed is as it was and the rest is as it shall be, the calls that failed are
those that are still to be made. -/
theorem diff_retry {r r' : Resources}
    (h : ∀ hub name, r'.get? hub name =
      if fails hub name then r.get? hub name else next.get? hub name) :
    r'.diff next = (r.diff next).filter fun c => fails c.hub c.name := by
  have happly : r'.toApply next = (r.toApply next).filter fun e => fails e.1 e.2.key := by
    unfold toApply
    rw [List.filter_filter]
    refine List.filter_congr fun e he => ?_
    rw [mem_toList] at he
    by_cases hf : fails e.1 e.2.key <;> simp [h, hf, he]
  have hdelete : r'.toDelete next = (r.toDelete next).filter fun e => fails e.1 e.2 := by
    refine SortedMap.eq_of_mem_iff id (sorted_toDelete ..)
      ((sorted_toDelete ..).sublist List.filter_sublist) fun ⟨hub, name⟩ => ?_
    rw [List.mem_filter, mem_toDelete, mem_toDelete, h]
    by_cases hf : fails hub name <;> simp +contextual [hf]
  unfold diff
  rw [happly, hdelete, List.filter_append, List.filter_map, List.filter_map]
  rfl

end

/-- A difference without calls is none. -/
theorem eq_of_diff_eq_nil {r next : Resources} (h : r.diff next = []) : r = next := by
  refine ext_get? fun hub name => Decidable.byContradiction fun hne => ?_
  obtain ⟨c, hc, -⟩ := exists_mem_diff hne
  rw [h] at hc
  cases hc

/-! ## Calls in any order -/

section
variable {r next : Resources} {c c' : Call} {calls : List Call}

/-- A difference calls for nothing twice. -/
theorem eq_of_mem_diff (h : c ∈ r.diff next) (h' : c' ∈ r.diff next) (hhub : c.hub = c'.hub)
    (hname : c.name = c'.name) : c = c' := by
  have hresult : c.result = c'.result := by
    rw [← (mem_diff.1 h).1, ← (mem_diff.1 h').1, hhub, hname]
  cases c with
  | apply hub cm =>
    cases c' with
    | apply hub' cm' =>
      cases hhub
      cases hresult
      rfl
    | delete hub' name' => cases hresult
  | delete hub name =>
    cases c' with
    | apply hub' cm' => cases hresult
    | delete hub' name' =>
      cases hhub
      cases hname
      rfl

theorem nodup_diff (r next : Resources) : (r.diff next).Nodup := by
  unfold diff
  refine List.nodup_append.2 ⟨List.pairwise_map.2 ?_, List.pairwise_map.2 ?_, ?_⟩
  · refine (next.sorted_toList.sublist List.filter_sublist).imp fun {a b} hlt he => ?_
    obtain ⟨hhub, hcm⟩ := Call.apply.inj he
    rw [hhub, hcm] at hlt
    exact Key.lt_irrefl _ hlt
  · refine (sorted_toDelete r next).imp fun {a b} hlt he => ?_
    obtain ⟨hhub, hname⟩ := Call.delete.inj he
    rw [Prod.ext hhub hname] at hlt
    exact Key.lt_irrefl _ hlt
  · intro c hc c' hc' he
    obtain ⟨e, -, rfl⟩ := List.mem_map.1 hc
    obtain ⟨e', -, rfl⟩ := List.mem_map.1 hc'
    cases he

/-- Calls of which none fails. -/
theorem foldl_runUnless_never (calls : List Call) (r : Resources) :
    calls.foldl (Call.runUnless fun _ _ => false) r = calls.foldl Call.run r := rfl

theorem run_of_perm (h : calls.Perm (r.diff next)) : calls.foldl Call.run r = next := by
  refine ext_get? fun hub name => ?_
  rw [← foldl_runUnless_never, get?_run_toward hub name fun c hc =>
    (mem_diff.1 (h.mem_iff.1 hc)).1]
  split
  · rfl
  next hno =>
    refine Decidable.byContradiction fun hne => hno ?_
    obtain ⟨c, hc, hplace⟩ := exists_mem_diff hne
    exact ⟨rfl, c, h.mem_iff.2 hc, hplace⟩

/-- Where a call is left out, the ConfigMap that it is about stays as it was. -/
theorem run_ne_of_not_mem (hsub : calls ⊆ r.diff next) (hc : c ∈ r.diff next) (hout : c ∉ calls) :
    calls.foldl Call.run r ≠ next := by
  have helsewhere : ∀ c' ∈ calls, ¬ (c'.hub = c.hub ∧ c'.name = c.name) := by
    intro c' hc' ⟨hhub, hname⟩
    exact hout (eq_of_mem_diff (hsub hc') hc hhub hname ▸ hc')
  have hkept : (calls.foldl Call.run r).get? c.hub c.name = r.get? c.hub c.name := by
    rw [← foldl_runUnless_never, get?_run_elsewhere helsewhere]
  intro he
  obtain ⟨hnext, hold⟩ := mem_diff.1 hc
  rw [he, hnext] at hkept
  exact hold hkept.symm

theorem exists_get?_of_mem_hubs {hub : String} (h : hub ∈ r.hubs) :
    ∃ name cm, r.get? hub name = some cm := by
  obtain ⟨cms, hcms⟩ := Option.isSome_iff_exists.1 (SortedMap.mem_keys_iff.1 h)
  obtain ⟨name, cm, hcm⟩ := SortedMap.isEmpty_eq_false_iff.1 (r.inhabited hub cms hcms)
  refine ⟨name, cm, ?_⟩
  unfold get? of SortedMap.getD
  rw [hcms, Option.getD_some, hcm]

end

/-- Whatever two values were made of: the calls of their difference turn the first one into the
second in any order, and leave no hub without a ConfigMap. Nothing is both applied and deleted. If
any of the calls is left out, something else comes out, in any order of the others. -/
theorem diff_exact (r next : Resources) :
    (∀ calls : List Call, calls.Perm (r.diff next) →
      calls.foldl Call.run r = next ∧
      ∀ hub ∈ (calls.foldl Call.run r).hubs, ∃ name cm,
        (calls.foldl Call.run r).get? hub name = some cm) ∧
    (∀ e ∈ r.toApply next, (e.1, e.2.key) ∉ r.toDelete next) ∧
    ∀ c ∈ r.diff next, ∀ calls : List Call, calls.Perm ((r.diff next).erase c) →
      calls.foldl Call.run r ≠ next := by
  refine ⟨fun calls hperm => ?_, fun e he he' => ?_, fun c hc calls hperm => ?_⟩
  · exact ⟨run_of_perm hperm, fun hub => exists_get?_of_mem_hubs⟩
  · have hnew := (mem_toApply.1 he).1
    rw [(mem_toDelete.1 he').2] at hnew
    cases hnew
  · refine run_ne_of_not_mem (fun c' hc' => List.mem_of_mem_erase (hperm.mem_iff.1 hc')) hc ?_
    rw [hperm.mem_iff]
    exact (nodup_diff r next).not_mem_erase

/-- A ConfigMap has no name on one hub, and another one is alone on its hub. -/
def untidy : Resources :=
  ((empty.insert "east" (text (some "x") "1")).insert "east" (text none "1")).insert "west"
    (text (some "y") "1")
where
  text (name : Option String) (s : String) : ConfigMap :=
    .plain name none (some ((∅ : SortedMap String String).insert "text" s))

/-- The one without a name moves, the lonely one goes, and the third one changes. -/
def tidied : Resources :=
  ((untidy.remove "west" "y").remove "east" "").merge
    ((empty.insert "east" (untidy.text (some "x") "2")).insert "north" (untidy.text none "1"))

/-- All four calls are needed; the hub that is left without a ConfigMap goes with it. -/
theorem diff_exact_untidy :
    let calls : List Call := [.delete "west" "y", .apply "north" (untidy.text none "1"),
      .delete "east" "", .apply "east" (untidy.text (some "x") "2")]
    calls.Perm (untidy.diff tidied) ∧ calls.foldl Call.run untidy = tidied ∧
    tidied.hubs = ["east", "north"] ∧
    .delete "west" "y" ∈ untidy.diff tidied ∧ calls.tail.foldl Call.run untidy ≠ tidied := by
  intro calls
  have hperm : calls.Perm (untidy.diff tidied) := by decide +kernel
  have hmem : .delete "west" "y" ∈ untidy.diff tidied := hperm.mem_iff.1 (List.mem_cons_self ..)
  have htail : calls.erase (.delete "west" "y") = calls.tail := List.erase_cons_head ..
  obtain ⟨hrun, -, hneeded⟩ := diff_exact untidy tidied
  exact ⟨hperm, (hrun calls hperm).1, by decide +kernel, hmem,
    hneeded _ hmem calls.tail (htail ▸ hperm.erase (.delete "west" "y"))⟩

end Resources

end HubFederation
