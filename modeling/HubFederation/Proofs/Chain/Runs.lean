import HubFederation.Proofs.Chain.Passes

/-!
# What the hubs of a way run, pass after pass

The hubs of a way are visited once from the exporting side. `opened` is the stack that
the hub at hand dials for a chain which the joint before it left there, if it did;
`near` is the near end of what starts at the hub.

* `along_fuseAll`: after fusing, a hub runs one chain or none (`headRun`, `tailRuns`);
* `handOver_runs`: a chain that only relays is run by the next hub (`afterExports`);
* `gather_afterExports`: a chain that is only relayed to is run by the hub before it
  (`settled`).
-/
namespace HubFederation.Tunnel

/-- The chain that the joint before a hub left there: it binds the far end alone. -/
def carry (t : Tunnel) (opened : Option (List Endpoint)) (ahead : List Joint) : List Chain :=
  match opened with
  | some stack => [⟨[t.far ahead], stack⟩]
  | none => []

/-- What a hub runs after fusing. -/
def headRun (t : Tunnel) (near : Endpoint) (opened : Option (List Endpoint)) :
    List Joint → List Chain
  | [] => t.carry opened []
  | j :: js =>
    if j.pulled then t.carry opened (j :: js) else [⟨t.far js :: j.hops, opened.getD [near]⟩]

/-- What the hubs behind it run after fusing. -/
def tailRuns (t : Tunnel) (near : Endpoint) : List Joint → List (String × List Chain)
  | [] => []
  | j :: js =>
    (j.importing, t.headRun t.socket (if j.pulled then some (near :: j.hops) else none) js) ::
      tailRuns t t.socket js

/-- After the exports: the stacks of joints that are pulled one after the other are one. -/
def afterExports (t : Tunnel) (near : Endpoint) (opened : Option (List Endpoint)) (hub : String) :
    List Joint → List (String × List Chain)
  | [] => [(hub, t.carry opened [])]
  | j :: js =>
    if j.pulled then
      (hub, []) :: afterExports t t.socket (some (opened.getD [near] ++ j.hops)) j.importing js
    else
      (hub, [⟨t.far js :: j.hops, opened.getD [near]⟩]) ::
        afterExports t t.socket none j.importing js

/-- The stack that is bound behind a joint that is not pulled. -/
def pushed (t : Tunnel) : List Joint → List Endpoint
  | [] => [.listen t.bindPort]
  | j :: js => if j.pulled then [t.socket] else pushed t js ++ j.hops

/-- The first hub gave away what it ran. -/
def silence : List (String × List Chain) → List (String × List Chain)
  | [] => []
  | x :: rest => (x.1, []) :: rest

/-- After the imports as well. -/
def settled (t : Tunnel) (near : Endpoint) (opened : Option (List Endpoint)) (hub : String) :
    List Joint → List (String × List Chain)
  | [] => [(hub, t.carry opened [])]
  | j :: js =>
    if j.pulled then
      (hub, []) :: settled t t.socket (some (opened.getD [near] ++ j.hops)) j.importing js
    else
      (hub, [⟨t.pushed js ++ j.hops, opened.getD [near]⟩]) ::
        silence (settled t t.socket none j.importing js)

@[simp] theorem far_nil (t : Tunnel) : t.far [] = .listen t.bindPort := rfl

@[simp] theorem far_cons (t : Tunnel) (j : Joint) (js : List Joint) : t.far (j :: js) = t.socket :=
  rfl

/-! ## Fusing -/

/-- The chains among links that a hub runs. -/
def chainsOf (ls : List (String × Chain)) (hub : String) : List Chain :=
  (ls.filter (·.1 = hub)).map (·.2)

theorem chainsOf_cons (l : String × Chain) (ls : List (String × Chain)) (hub : String) :
    chainsOf (l :: ls) hub = (if hub = l.1 then [l.2] else []) ++ chainsOf ls hub := by
  unfold chainsOf
  by_cases h : hub = l.1
  · simp [h]
  · simp [h, Ne.symm h]

theorem chainsOf_linksOf_of_not_mem (t : Tunnel) (near : Endpoint) {js : List Joint}
    {hub hub' : String} (hj : Joined hub js) (h : hub' ∉ hub :: js.map (·.importing)) :
    chainsOf (t.linksOf near js) hub' = [] := by
  unfold chainsOf
  rw [List.map_eq_nil_iff, List.filter_eq_nil_iff]
  intro l hl he
  rw [decide_eq_true_eq] at he
  subst he
  exact h (List.mem_cons.2 (runner_mem_linksOf hj hl))

@[simp] theorem fuse_singleton (c : Chain) : Chains.fuse [c] = [c] := by
  unfold Chains.fuse
  split
  next h => cases h
  · rfl

@[simp] theorem fuse_carry (t : Tunnel) (opened : Option (List Endpoint)) (js : List Joint) :
    Chains.fuse (t.carry opened js) = t.carry opened js := by
  cases opened with
  | none => rfl
  | some stack => exact fuse_singleton _

/-- A hub that dials both of its neighbours runs one chain for both joints. -/
theorem fuse_carry_append (t : Tunnel) {near : Endpoint} {opened : Option (List Endpoint)}
    (h : opened ≠ none → near = t.socket) (bind : List Endpoint) (j : Joint) (js : List Joint) :
    Chains.fuse (t.carry opened (j :: js) ++ [⟨bind, [near]⟩]) =
      [⟨bind, opened.getD [near]⟩] := by
  cases opened with
  | none => exact fuse_singleton _
  | some stack =>
    rw [h (by simp)]
    simp [carry, socket, Chains.fuse]

theorem map_fuse_linksOf (t : Tunnel) {js : List Joint} {hub : String} (near : Endpoint)
    (opened : Option (List Endpoint)) (hj : Joined hub js)
    (hn : (hub :: js.map (·.importing)).Nodup) (ho : opened ≠ none → near = t.socket) :
    (hub :: js.map (·.importing)).map (fun x => (x, Chains.fuse
        ((if x = hub then t.carry opened js else []) ++ chainsOf (t.linksOf near js) x))) =
      (hub, t.headRun near opened js) :: t.tailRuns near js := by
  induction js generalizing hub near opened with
  | nil => simp [linksOf, chainsOf, headRun, tailRuns]
  | cons j js ih =>
    obtain ⟨he, hj⟩ := hj
    rw [List.map_cons, List.nodup_cons] at hn
    obtain ⟨hhub, hn⟩ := hn
    have hne : ∀ x ∈ j.importing :: js.map (·.importing), x ≠ hub := by
      intro x hx hxe
      exact hhub (hxe ▸ hx)
    have hrest := chainsOf_linksOf_of_not_mem t t.socket hj hhub
    rw [List.map_cons, linksOf, tailRuns, headRun]
    by_cases hp : j.pulled
    · have ih' := ih t.socket (some (near :: j.hops)) hj hn fun _ => rfl
      simp only [if_pos hp, linkOf, chainsOf_cons]
      refine List.cons_eq_cons.2 ⟨?_, ih' ▸ List.map_congr_left fun x hx => ?_⟩
      · rw [if_neg (Ne.symm (hne _ (List.mem_cons_self ..))), hrest]
        simp
      · rw [if_neg (hne x hx), List.nil_append]; rfl
    · have ih' := ih t.socket none hj hn fun _ => rfl
      simp only [if_neg hp, linkOf, chainsOf_cons, he]
      refine List.cons_eq_cons.2 ⟨?_, ih' ▸ List.map_congr_left fun x hx => ?_⟩
      · rw [hrest, List.append_nil, if_true, if_true, fuse_carry_append t ho]
      · rw [if_neg (hne x hx), if_neg (hne x hx)]
        simp [carry]

/-- What the hubs of a way run after fusing, before any chain is handed on. -/
theorem along_fuseAll (t : Tunnel) {js : List Joint} {hub : String} (near : Endpoint)
    (hj : Joined hub js) (hn : (hub :: js.map (·.importing)).Nodup) :
    Chains.along (Chains.fuseAll (Chains.ofList (t.linksOf near js)))
        (hub :: js.map (·.importing)) =
      (hub, t.headRun near none js) :: t.tailRuns near js := by
  rw [← map_fuse_linksOf t near none hj hn fun h => absurd rfl h]
  refine List.map_congr_left fun x _ => ?_
  rw [Chains.own_fuseAll, Chains.own_ofList]
  simp [carry, chainsOf]

/-! ## Exports -/

/-- A chain that binds nothing but the socket is taken over by the next hub, whose chain
dials the socket. -/
theorem takeOver_headRun (t : Tunnel) (stack hops : List Endpoint) (js : List Joint) :
    Chains.takeOver [⟨[t.socket], stack⟩] (t.headRun t.socket (some (t.socket :: hops)) js) =
      some (t.headRun t.socket (some (stack ++ hops)) js) := by
  cases js with
  | nil => simp [headRun, carry, Chains.takeOver, socket]
  | cons j js =>
    rw [headRun, headRun]
    by_cases hp : j.pulled <;> simp [hp, carry, Chains.takeOver, socket]

/-- A chain that binds through hops is kept. -/
theorem takeOver_of_hops (far : Endpoint) {hops : List Endpoint} (h : hops ≠ [])
    (stack : List Endpoint) (i : List Chain) : Chains.takeOver [⟨far :: hops, stack⟩] i = none := by
  obtain ⟨hop, rest, rfl⟩ := List.exists_cons_of_ne_nil h
  unfold Chains.takeOver
  split
  next he => simp at he
  · rfl

theorem handOver_runs (t : Tunnel) {js : List Joint} {hub : String} {near : Endpoint}
    {opened : Option (List Endpoint)} (hh : ∀ j ∈ js, j.hops ≠ [])
    (ho : opened ≠ none → near = t.socket) :
    Chains.handOver (hub, t.headRun near opened js) (t.tailRuns near js) =
      t.afterExports near opened hub js := by
  induction js generalizing hub near opened with
  | nil => rfl
  | cons j js ih =>
    have ih' {hub : String} {opened : Option (List Endpoint)} :
        Chains.handOver (hub, t.headRun t.socket opened js) (t.tailRuns t.socket js) =
          t.afterExports t.socket opened hub js :=
      ih (fun x hx => hh x (List.mem_cons_of_mem _ hx)) fun _ => rfl
    rw [headRun, tailRuns, afterExports, Chains.handOver]
    by_cases hp : j.pulled
    · simp only [if_pos hp]
      cases opened with
      | none =>
        rw [carry, Chains.takeOver_nil_left]
        simp only
        rw [ih']
        rfl
      | some stack =>
        rw [ho (by simp), carry, far_cons, takeOver_headRun]
        simp only
        rw [ih']
        rfl
    · simp only [if_neg hp]
      rw [takeOver_of_hops _ (hh j (List.mem_cons_self ..))]
      simp only
      rw [ih']

/-! ## Imports -/

/-- What a hub runs at last: a chain only if none was opened before a joint that is pulled. -/
theorem settled_eq_cons (t : Tunnel) (near : Endpoint) (opened : Option (List Endpoint))
    (hub : String) (js : List Joint) : ∃ l rest, t.settled near opened hub js = (hub, l) :: rest := by
  cases js with
  | nil => exact ⟨_, _, rfl⟩
  | cons j js => rw [settled]; split <;> exact ⟨_, _, rfl⟩

/-- A chain that binds the socket through hops takes back the chain behind it, if that
dials nothing but the socket. -/
theorem gather_cons_settled (t : Tunnel) (hub hub' : String) (hops stack : List Endpoint)
    (js : List Joint) (rest : List (String × List Chain))
    (h : Chains.gather rest = t.settled t.socket none hub' js) :
    Chains.gather ((hub, [⟨t.far js :: hops, stack⟩]) :: rest) =
      (hub, [⟨t.pushed js ++ hops, stack⟩]) :: silence (t.settled t.socket none hub' js) := by
  rw [Chains.gather, h]
  cases js with
  | nil => simp [settled, carry, pushed, silence]
  | cons j js =>
    rw [settled, pushed]
    by_cases hp : j.pulled
    · simp [hp, silence]
    · simp [hp, silence, Chains.takeBack, socket]

theorem gather_afterExports (t : Tunnel) (near : Endpoint) (opened : Option (List Endpoint))
    (hub : String) (js : List Joint) :
    Chains.gather (t.afterExports near opened hub js) = t.settled near opened hub js := by
  induction js generalizing near opened hub with
  | nil => rfl
  | cons j js ih =>
    rw [afterExports, settled]
    by_cases hp : j.pulled
    · simp only [if_pos hp]
      obtain ⟨l, rest, hs⟩ := settled_eq_cons t t.socket
        (some (opened.getD [near] ++ j.hops)) j.importing js
      rw [Chains.gather, ih, hs]
      rfl
    · simp only [if_neg hp]
      exact gather_cons_settled t _ _ _ _ _ _ (ih _ _ _)

end HubFederation.Tunnel
