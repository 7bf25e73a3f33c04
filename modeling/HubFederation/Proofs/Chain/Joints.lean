import HubFederation.Chain.Merge

/-!
# The joints of a way

A joint is what joins two neighbours on a way: which of them dials the other, and the
endpoints through which it does. `Tunnel.chains` makes one link of each joint, a chain
with the hub that runs it.

`Chains.own` is the view of chains that the proofs below read and write: what a hub
runs, which is nothing for a hub that is not listed.

* `bind_eq_ok`: a step that can fail gives a result if both of its parts do.
* `mapM_eq_error`: a step that is taken item by item fails at the first item for which it fails.
* `links_eq_map`: the chains along a way are the links of its joints.
* `own_ofList`: a hub runs the links that name it, in order.
-/
namespace HubFederation

/-! ## Steps that can fail -/

section
variable {ε α β : Type}

theorem bind_eq_ok {x : Except ε α} {f : α → Except ε β} {b : β} :
    x >>= f = .ok b ↔ ∃ a, x = .ok a ∧ f a = .ok b := by
  cases x with
  | error e => exact ⟨fun h => (nomatch h), fun ⟨_, h, _⟩ => (nomatch h)⟩
  | ok a => exact ⟨fun h => ⟨a, rfl, h⟩, fun ⟨_, ha, h⟩ => by cases ha; exact h⟩

theorem map_eq_ok {x : Except ε α} {f : α → β} {b : β} :
    x.map f = .ok b ↔ ∃ a, x = .ok a ∧ f a = b := by
  cases x with
  | error e => exact ⟨fun h => (nomatch h), fun ⟨_, h, _⟩ => (nomatch h)⟩
  | ok a => exact ⟨fun h => ⟨a, rfl, by cases h; rfl⟩, fun ⟨_, ha, h⟩ => by cases ha; cases h; rfl⟩

theorem bind_eq_error {x : Except ε α} {f : α → Except ε β} {e : ε} :
    x >>= f = .error e ↔ x = .error e ∨ ∃ a, x = .ok a ∧ f a = .error e := by
  cases x with
  | error e' =>
    refine ⟨fun h => .inl (by cases h; rfl), ?_⟩
    rintro (h | ⟨_, h, -⟩) <;> cases h
    rfl
  | ok a =>
    refine ⟨fun h => .inr ⟨a, rfl, h⟩, ?_⟩
    rintro (h | ⟨_, h, hf⟩) <;> cases h
    exact hf

theorem map_eq_error {x : Except ε α} {f : α → β} {e : ε} :
    x.map f = .error e ↔ x = .error e := by
  cases x with
  | error e' => exact ⟨fun h => by cases h; rfl, fun h => by cases h; rfl⟩
  | ok a => exact ⟨fun h => (nomatch h), fun h => (nomatch h)⟩

/-- A step that is taken for every item fails as it does for the first one for which it fails. -/
theorem mapM_eq_error {f : α → Except ε β} {as : List α} {e : ε} : as.mapM f = .error e ↔
    ∃ before a after, as = before ++ a :: after ∧ (∀ x ∈ before, ∃ b, f x = .ok b) ∧
      f a = .error e := by
  induction as with
  | nil => exact ⟨fun h => (nomatch h), fun ⟨_, _, _, h, _⟩ => by simp at h⟩
  | cons a as ih =>
    rw [List.mapM_cons, bind_eq_error]
    constructor
    · rintro (h | ⟨b, hb, h⟩)
      · exact ⟨[], a, as, rfl, by simp, h⟩
      · rcases bind_eq_error.1 h with h | ⟨bs, -, h⟩
        · obtain ⟨before, a', after, rfl, hbefore, h⟩ := ih.1 h
          exact ⟨a :: before, a', after, rfl, List.forall_mem_cons.2 ⟨⟨b, hb⟩, hbefore⟩, h⟩
        · cases h
    · rintro ⟨before, a', after, has, hbefore, h⟩
      cases before with
      | nil =>
        cases has
        exact .inl h
      | cons x before =>
        cases has
        obtain ⟨⟨b, hb⟩, hbefore⟩ := List.forall_mem_cons.1 hbefore
        exact .inr ⟨b, hb, bind_eq_error.2 (.inl (ih.2 ⟨before, a', after, rfl, hbefore, h⟩))⟩

theorem exists_mapM_eq_ok {f : α → Except ε β} {as : List α} :
    (∃ bs, as.mapM f = .ok bs) ↔ ∀ a ∈ as, ∃ b, f a = .ok b := by
  induction as with
  | nil => exact ⟨fun _ _ h => (nomatch h), fun _ => ⟨[], rfl⟩⟩
  | cons a as ih =>
    rw [List.mapM_cons, List.forall_mem_cons, ← ih]
    constructor
    · rintro ⟨bs, h⟩
      obtain ⟨b, hb, h⟩ := bind_eq_ok.1 h
      obtain ⟨bs', hbs, -⟩ := bind_eq_ok.1 h
      exact ⟨⟨b, hb⟩, bs', hbs⟩
    · rintro ⟨⟨b, hb⟩, bs, hbs⟩
      exact ⟨b :: bs, bind_eq_ok.2 ⟨b, hb, bind_eq_ok.2 ⟨bs, hbs, rfl⟩⟩⟩

end

/-! ## Joints -/

/-- Two neighbours on a way and the endpoints between them. -/
structure Joint where
  exporting : String
  importing : String
  /-- Whether the importing hub dials the exporting one; otherwise it is the other way. -/
  pulled : Bool
  /-- The endpoints through which one of them dials the other. -/
  hops : List Endpoint
  deriving DecidableEq

namespace Joint

/-- The hub that is dialed. -/
def dialed (j : Joint) : String := if j.pulled then j.exporting else j.importing

/-- The first endpoint of a joint is the tunnel of the hub that is dialed. -/
def Dials (j : Joint) : Prop :=
  ∃ hop rest, j.hops = .ssh hop :: rest ∧ hop.targetHub = some j.dialed

theorem Dials.hops_ne_nil {j : Joint} (h : j.Dials) : j.hops ≠ [] := by
  obtain ⟨hop, rest, he, -⟩ := h
  rw [he]; exact List.cons_ne_nil _ _

end Joint

/-- The joint of two neighbours. -/
def joint (gateway : Gateways) (exporting importing : String) : Except ChainError Joint :=
  if (gateway exporting importing).reachable then
    (Tunnel.dial gateway importing exporting).map fun hops => ⟨exporting, importing, true, hops⟩
  else if (gateway importing exporting).reachable then
    (Tunnel.dial gateway exporting importing).map fun hops => ⟨exporting, importing, false, hops⟩
  else .error (.unreachable exporting importing)

/-- The joints of a way, from the exporting side on. -/
def joints (gateway : Gateways) (way : List String) : Except ChainError (List Joint) :=
  (Chains.neighbours way).mapM fun pair => joint gateway pair.1 pair.2

theorem dial_eq_ok {gateway : Gateways} {runner target : String} {hops : List Endpoint}
    (h : Tunnel.dial gateway runner target = .ok hops) :
    ∃ rest, hops = Tunnel.hubHop target (gateway target runner) :: rest := by
  obtain ⟨reception, -, h⟩ := bind_eq_ok.1 h
  obtain ⟨navigation, -, h⟩ := bind_eq_ok.1 h
  cases h
  exact ⟨_, rfl⟩

theorem targetHub_toHub (address hub : String) :
    (SshHop.toHub address hub).targetHub = some hub := by
  simp [SshHop.toHub, SshHop.targetHub]

/-- What is known of a joint: its hubs, its direction and where its hops lead. -/
theorem joint_eq_ok {gateway : Gateways} {e i : String} {j : Joint}
    (h : joint gateway e i = .ok j) :
    j.exporting = e ∧ j.importing = i ∧ j.pulled = (gateway e i).reachable ∧ j.Dials := by
  unfold joint at h
  split at h
  next hr =>
    obtain ⟨hops, hd, rfl⟩ := map_eq_ok.1 h
    obtain ⟨rest, rfl⟩ := dial_eq_ok hd
    exact ⟨rfl, rfl, hr.symm, _, rest, rfl, targetHub_toHub _ _⟩
  next hr =>
    split at h
    · obtain ⟨hops, hd, rfl⟩ := map_eq_ok.1 h
      obtain ⟨rest, rfl⟩ := dial_eq_ok hd
      exact ⟨rfl, rfl, by simpa using hr, _, rest, rfl, targetHub_toHub _ _⟩
    · cases h

/-- Each joint starts at the hub where the one before it ends, the first one at `hub`. -/
def Joined (hub : String) : List Joint → Prop
  | [] => True
  | j :: js => j.exporting = hub ∧ Joined j.importing js

theorem neighbours_cons_cons (a b : String) (rest : List String) :
    Chains.neighbours (a :: b :: rest) = (a, b) :: Chains.neighbours (b :: rest) := rfl

theorem joints_cons_cons (gateway : Gateways) (a b : String) (rest : List String) :
    joints gateway (a :: b :: rest) = do
      let j ← joint gateway a b
      let js ← joints gateway (b :: rest)
      return j :: js := by
  unfold joints
  rw [neighbours_cons_cons, List.mapM_cons]

theorem joints_eq_ok {gateway : Gateways} {a b : String} {rest : List String}
    {js : List Joint} (h : joints gateway (a :: b :: rest) = .ok js) :
    ∃ j js', js = j :: js' ∧ joint gateway a b = .ok j ∧ joints gateway (b :: rest) = .ok js' := by
  rw [joints_cons_cons] at h
  obtain ⟨j, hj, h⟩ := bind_eq_ok.1 h
  obtain ⟨js', hjs, h⟩ := bind_eq_ok.1 h
  cases h
  exact ⟨j, js', rfl, hj, hjs⟩

/-- The joints of a way visit its hubs in order, and each dials one of its two hubs. -/
theorem joints_along {gateway : Gateways} {way : List String} {hub : String} {js : List Joint}
    (h : joints gateway (hub :: way) = .ok js) :
    Joined hub js ∧ way = js.map (·.importing) ∧ ∀ j ∈ js, j.Dials := by
  induction way generalizing hub js with
  | nil => cases h; exact ⟨trivial, rfl, by simp⟩
  | cons b rest ih =>
    obtain ⟨j, js', rfl, hj, hjs⟩ := joints_eq_ok h
    obtain ⟨he, hi, -, hd⟩ := joint_eq_ok hj
    obtain ⟨hjoined, hway, hall⟩ := ih hjs
    exact ⟨⟨he, hi ▸ hjoined⟩, by simp [hi, hway], List.forall_mem_cons.2 ⟨hd, hall⟩⟩

/-! ## Links -/

namespace Tunnel

/-- The local end of a stack that is bound before the joints `ahead`: the bind port
behind the last joint, the socket elsewhere. -/
def far (t : Tunnel) (ahead : List Joint) : Endpoint :=
  if ahead.isEmpty then .listen t.bindPort else t.socket

/-- The chain of one joint, and the hub that runs it. -/
def linkOf (far near : Endpoint) (j : Joint) : String × Chain :=
  if j.pulled then (j.importing, ⟨[far], near :: j.hops⟩)
  else (j.exporting, ⟨far :: j.hops, [near]⟩)

/-- The chains of joints of which `near` is the near end. -/
def linksOf (t : Tunnel) (near : Endpoint) : List Joint → List (String × Chain)
  | [] => []
  | j :: js => linkOf (t.far js) near j :: linksOf t t.socket js

theorem link_eq_linkOf (gateway : Gateways) (bind proxy : Endpoint) (e i : String) :
    link gateway bind proxy e i = (joint gateway e i).map (linkOf bind proxy) := by
  unfold link joint
  split
  · cases dial gateway i e <;> rfl
  · split
    · cases dial gateway e i <;> rfl
    · rfl

/-- The chains along a way are the links of its joints. -/
theorem links_eq_map (t : Tunnel) (gateway : Gateways) (near : Endpoint) (way : List String) :
    links t gateway near way = (joints gateway way).map (t.linksOf near) := by
  induction way generalizing near with
  | nil => rfl
  | cons hub rest ih =>
    cases rest with
    | nil => rfl
    | cons i rest =>
      rw [links, link_eq_linkOf, joints_cons_cons, ih]
      cases joint gateway hub i with
      | error e => rfl
      | ok j =>
        cases hjs : joints gateway (i :: rest) with
        | error e => rfl
        | ok js =>
          have hrest : rest = js.map (·.importing) := (joints_along hjs).2.1
          have hfar : (if rest.isEmpty then .listen t.bindPort else t.socket) = t.far js := by
            rw [far, hrest, List.isEmpty_map]
          rw [hfar]
          rfl

theorem links_eq_linksOf {t : Tunnel} {gateway : Gateways} {way : List String} {hub : String}
    {near : Endpoint} {ls : List (String × Chain)}
    (h : links t gateway near (hub :: way) = .ok ls) :
    ∃ js, joints gateway (hub :: way) = .ok js ∧ ls = t.linksOf near js := by
  rw [links_eq_map] at h
  obtain ⟨js, hjs, rfl⟩ := map_eq_ok.1 h
  exact ⟨js, hjs, rfl⟩

/-- The links of joined joints are run by hubs that the joints visit. -/
theorem runner_mem_linksOf {t : Tunnel} {js : List Joint} {hub : String} {near : Endpoint}
    {l : String × Chain} (hj : Joined hub js) (h : l ∈ t.linksOf near js) :
    l.1 = hub ∨ l.1 ∈ js.map (·.importing) := by
  induction js generalizing hub near with
  | nil => cases h
  | cons j js ih =>
    rw [List.map_cons, List.mem_cons]
    rcases List.mem_cons.1 h with rfl | h
    · unfold linkOf
      split
      · exact .inr (.inl rfl)
      · exact .inl hj.1
    · exact .inr (ih hj.2 h)

end Tunnel

/-! ## What a hub runs -/

namespace Chains

/-- The chains that a hub runs. -/
def own (cs : Chains) (hub : String) : List Chain := (cs.get? hub).getD []

/-- What each hub of a way runs. -/
def along (cs : Chains) (way : List String) : List (String × List Chain) :=
  way.map fun hub => (hub, cs.own hub)

@[simp] theorem along_cons (cs : Chains) (a : String) (rest : List String) :
    cs.along (a :: rest) = (a, cs.own a) :: cs.along rest := rfl

theorem own_insert (cs : Chains) (hub hub' : String) (l : List Chain) :
    own (cs.insert hub l) hub' = if hub' = hub then l else cs.own hub' := by
  unfold own
  by_cases h : hub' = hub
  · subst h; simp
  · rw [SortedMap.get?_insert_of_ne _ _ h, if_neg h]

theorem own_add (cs : Chains) (hub hub' : String) (c : Chain) :
    own (cs.add hub c) hub' = cs.own hub' ++ if hub' = hub then [c] else [] := by
  unfold add SortedMap.alter
  rw [own_insert]
  split
  next h => subst h; rfl
  · simp

/-- A hub runs the links that name it, in order. -/
theorem own_ofList (ls : List (String × Chain)) (hub : String) :
    own (ofList ls) hub = (ls.filter (·.1 = hub)).map (·.2) := by
  have h : ∀ (ls : List (String × Chain)) (cs : Chains),
      own (ls.foldl (fun acc l => acc.add l.1 l.2) cs) hub =
        cs.own hub ++ (ls.filter (·.1 = hub)).map (·.2) := by
    intro ls
    induction ls with
    | nil => simp
    | cons l ls ih =>
      intro cs
      rw [List.foldl_cons, ih, own_add]
      by_cases hl : hub = l.1
      · simp [hl]
      · simp [hl, Ne.symm hl]
  exact (h ls ∅).trans (List.nil_append _)

end Chains

end HubFederation
