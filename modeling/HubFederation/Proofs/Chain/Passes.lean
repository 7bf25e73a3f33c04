import HubFederation.Proofs.Chain.Joints

/-!
# The merge passes along a way

Each pass of `Chains.merge` acts on what the hubs of a way run, in the order of the way,
and on nothing else. On a way without repeats it is a scan of that list:

* `along_foldExports`: handing chains on, from the exporting side (`handOver`);
* `along_foldImports`: gathering chains, from the importing side (`gather`);
* `get?_merge`: what is left are the hubs that run something.
-/
namespace HubFederation.Chains

/-- What the importing hub of a pair runs if it takes over what the exporting one runs. -/
def takeOver : List Chain → List Chain → Option (List Chain)
  | [⟨[.unix path], proxy⟩], [⟨bind, .unix path' :: hops⟩] =>
    if path = path' then some [⟨bind, proxy ++ hops⟩] else none
  | _, _ => none

/-- What the exporting hub of a pair runs if it takes over what the importing one runs. -/
def takeBack : List Chain → List Chain → Option (List Chain)
  | [⟨.unix path :: hops, proxy⟩], [⟨bind, [.unix path']⟩] =>
    if path = path' then some [⟨bind ++ hops, proxy⟩] else none
  | _, _ => none

@[simp] theorem takeOver_nil_left (i : List Chain) : takeOver [] i = none := rfl

@[simp] theorem takeBack_nil_right (e : List Chain) : takeBack e [] = none := by
  unfold takeBack; split <;> simp_all

theorem single?_eq (cs : Chains) (hub : String) :
    cs.single? hub = match cs.own hub with
      | [c] => some c
      | _ => none := by
  unfold single? own
  cases cs.get? hub with
  | none => rfl
  | some l =>
    match l with
    | [] => rfl
    | [c] => rfl
    | _ :: _ :: _ => rfl

theorem foldExport_eq (cs : Chains) (a b : String) :
    cs.foldExport (a, b) = match takeOver (cs.own a) (cs.own b) with
      | some l => SortedMap.insert (cs.insert b l) a []
      | none => cs := by
  unfold foldExport
  simp only [single?_eq]
  generalize cs.own a = e
  generalize cs.own b = i
  unfold takeOver
  split
  next path proxy bind path' hops he hi =>
    split at he <;> cases he
    split at hi <;> cases hi
    simp only
    split <;> rfl
  next hne =>
    split
    next l hl =>
      split at hl
      · exact absurd rfl (hne _ _ _ _ _ rfl)
      · cases hl
    · rfl

theorem foldImport_eq (cs : Chains) (a b : String) :
    cs.foldImport (a, b) = match takeBack (cs.own a) (cs.own b) with
      | some l => SortedMap.insert (cs.insert a l) b []
      | none => cs := by
  unfold foldImport
  simp only [single?_eq]
  generalize cs.own a = e
  generalize cs.own b = i
  unfold takeBack
  split
  next path hops proxy bind path' he hi =>
    split at he <;> cases he
    split at hi <;> cases hi
    simp only
    split <;> rfl
  next hne =>
    split
    next l hl =>
      split at hl
      · exact absurd rfl (hne _ _ _ _ _ rfl)
      · cases hl
    · rfl

/-! ## Exports, from the exporting side -/

/-- What the hubs of a way run after each hub in turn, `x` being the first of them, had
its chain taken over by the next one where that can be. -/
def handOver (x : String × List Chain) :
    List (String × List Chain) → List (String × List Chain)
  | [] => [x]
  | y :: rest => match takeOver x.2 y.2 with
    | some l => (x.1, []) :: handOver (y.1, l) rest
    | none => x :: handOver y rest

theorem foldExports_cons_cons (a b : String) (rest : List String) (cs : Chains) :
    foldExports (a :: b :: rest) cs = foldExports (b :: rest) (cs.foldExport (a, b)) := rfl

theorem own_foldExport_of_ne (cs : Chains) {a b hub : String} (ha : hub ≠ a) (hb : hub ≠ b) :
    own (cs.foldExport (a, b)) hub = cs.own hub := by
  rw [foldExport_eq]
  split
  · rw [own_insert, if_neg ha, own_insert, if_neg hb]
  · rfl

/-- A hub that is not on the way keeps what it runs. -/
theorem own_foldExports_of_not_mem {hub : String} : ∀ {way : List String} (cs : Chains),
    hub ∉ way → own (foldExports way cs) hub = cs.own hub
  | [], _, _ => rfl
  | [_], _, _ => rfl
  | a :: b :: rest, cs, h => by
    rw [List.mem_cons, not_or] at h
    have hb : hub ≠ b := fun he => h.2 (he ▸ List.mem_cons_self ..)
    rw [foldExports_cons_cons, own_foldExports_of_not_mem _ h.2, own_foldExport_of_ne _ h.1 hb]

theorem along_congr {cs cs' : Chains} {way : List String}
    (h : ∀ hub ∈ way, cs.own hub = cs'.own hub) : cs.along way = cs'.along way :=
  List.map_congr_left fun hub hm => by rw [h hub hm]

/-- On a way without repeats, two neighbours are neither each other nor any hub behind them. -/
theorem ne_of_nodup {a b : String} {rest : List String} (h : (a :: b :: rest).Nodup) :
    a ≠ b ∧ ∀ hub ∈ rest, hub ≠ a ∧ hub ≠ b := by
  rw [List.nodup_cons, List.nodup_cons] at h
  obtain ⟨ha, hb, -⟩ := h
  refine ⟨fun he => ha (he ▸ List.mem_cons_self ..), fun hub hm => ⟨fun he => ?_, fun he => ?_⟩⟩
  · exact ha (he ▸ List.mem_cons_of_mem _ hm)
  · exact hb (he ▸ hm)

theorem along_foldExports {rest : List String} {a : String} (cs : Chains)
    (h : (a :: rest).Nodup) :
    along (foldExports (a :: rest) cs) (a :: rest) = handOver (a, cs.own a) (cs.along rest) := by
  induction rest generalizing a cs with
  | nil => rfl
  | cons b rest ih =>
    obtain ⟨hab, hne⟩ := ne_of_nodup h
    rw [List.nodup_cons] at h
    have hrest : along (cs.foldExport (a, b)) rest = cs.along rest :=
      along_congr fun hub hm => own_foldExport_of_ne cs (hne hub hm).1 (hne hub hm).2
    have ih' := ih (cs.foldExport (a, b)) h.2
    rw [hrest] at ih'
    rw [foldExports_cons_cons, along_cons, own_foldExports_of_not_mem _ h.1, ih', along_cons,
      handOver, foldExport_eq]
    simp only
    split
    · simp [own_insert, hab.symm]
    · simp

/-! ## Imports, from the importing side -/

/-- What the hubs of a way run after each hub, the last one first, took back the chain
of the next one where that can be. -/
def gather : List (String × List Chain) → List (String × List Chain)
  | [] => []
  | x :: rest => match gather rest with
    | [] => [x]
    | y :: rest => match takeBack x.2 y.2 with
      | some l => (x.1, l) :: (y.1, []) :: rest
      | none => x :: y :: rest

theorem foldImports_cons_cons (a b : String) (rest : List String) (cs : Chains) :
    foldImports (a :: b :: rest) cs = (foldImports (b :: rest) cs).foldImport (a, b) := rfl

theorem own_foldImport_of_ne (cs : Chains) {a b hub : String} (ha : hub ≠ a) (hb : hub ≠ b) :
    own (cs.foldImport (a, b)) hub = cs.own hub := by
  rw [foldImport_eq]
  split
  · rw [own_insert, if_neg hb, own_insert, if_neg ha]
  · rfl

theorem own_foldImports_of_not_mem {hub : String} : ∀ {way : List String} (cs : Chains),
    hub ∉ way → own (foldImports way cs) hub = cs.own hub
  | [], _, _ => rfl
  | [_], _, _ => rfl
  | a :: b :: rest, cs, h => by
    rw [List.mem_cons, not_or] at h
    have hb : hub ≠ b := fun he => h.2 (he ▸ List.mem_cons_self ..)
    rw [foldImports_cons_cons, own_foldImport_of_ne _ h.1 hb, own_foldImports_of_not_mem _ h.2]

theorem along_foldImports : ∀ {way : List String} (cs : Chains),
    way.Nodup → along (foldImports way cs) way = gather (cs.along way)
  | [], _, _ => rfl
  | [_], _, _ => rfl
  | a :: b :: rest, cs, h => by
    obtain ⟨hab, hne⟩ := ne_of_nodup h
    rw [List.nodup_cons] at h
    have ih := along_foldImports cs h.2
    have ha : own (foldImports (b :: rest) cs) a = cs.own a := own_foldImports_of_not_mem cs h.1
    have hrest : along ((foldImports (b :: rest) cs).foldImport (a, b)) rest =
        along (foldImports (b :: rest) cs) rest :=
      along_congr fun hub hm => own_foldImport_of_ne _ (hne hub hm).1 (hne hub hm).2
    rw [foldImports_cons_cons, along_cons, along_cons, hrest, along_cons cs, gather, ← ih, ← ha,
      foldImport_eq, along_cons]
    simp only
    split
    · simp [own_insert, hab]
    · simp

/-! ## All passes -/

theorem own_fuseAll (cs : Chains) (hub : String) : own cs.fuseAll hub = fuse (cs.own hub) := by
  unfold own fuseAll
  rw [SortedMap.get?_map]
  cases cs.get? hub <;> rfl

/-- Merging keeps the hubs that run something after the passes. -/
theorem get?_merge {way : List String} {cs : Chains} {hub : String} {l : List Chain} :
    (cs.merge way).get? hub = some l ↔
      own (foldImports way (foldExports way cs.fuseAll)) hub = l ∧ l ≠ [] := by
  unfold merge own
  rw [SortedMap.get?_filter, Option.filter_eq_some_iff]
  cases (foldImports way (foldExports way cs.fuseAll)).get? hub with
  | none =>
    simp only [Option.getD_none]
    exact ⟨fun h => (nomatch h.1), fun h => absurd h.1.symm h.2⟩
  | some l' => simp

end HubFederation.Chains
