import HubFederation.Chain.Bound
import HubFederation.Proofs.Chain.Joints

/-!
# What stands in the way of a tunnel

Chains are built pair by pair from the exporting side, and the first pair of neighbours that cannot
be joined decides the error. Two neighbours cannot be joined if neither can be dialed, or if one of
the proxies through which one of them dials the other is no endpoint. Which proxies these are
depends on who dials; what else is declared on either side is not read.

* `joint_eq_error_iff`, `exists_joint_iff`: what keeps two neighbours apart.
* `bounds_eq_error_iff`, `exists_bounds_iff`: when a tunnel cannot be built, and why.
* `bounds_fail_leftmost`: the same, and what does not matter for it.
-/
namespace HubFederation.Tunnel

/-! ## Proxies -/

/-- The proxies among relays. -/
def proxies (hops : List Hop) : List String :=
  hops.filterMap fun
    | .proxy uri => some uri
    | .hub _ => none

/-- The proxies through which `runner` dials `target`: those on the side of `target`, then those on
the side of `runner`. -/
def proxiesTo (gateway : Gateways) (runner target : String) : List String :=
  proxies ((gateway target runner).receptionProxy ++ (gateway runner target).navigationProxy)

/-- The proxies through which one of two neighbours dials the other. -/
def usedProxies (gateway : Gateways) (pair : String × String) : List String :=
  if (gateway pair.1 pair.2).reachable then proxiesTo gateway pair.2 pair.1
  else proxiesTo gateway pair.1 pair.2

/-- A text that is an endpoint. -/
def IsEndpoint (text : String) : Prop := ∃ e, Endpoint.parse text = .ok e

instance (text : String) : Decidable (IsEndpoint text) :=
  match h : Endpoint.parse text with
  | .ok e => .isTrue ⟨e, h⟩
  | .error _ => .isFalse fun ⟨_, he⟩ => nomatch h.symm.trans he

/-- What is wrong with the first text that is no endpoint. -/
def FirstMalformed (texts : List String) (cause : EndpointError) : Prop :=
  ∃ before text after, texts = before ++ text :: after ∧ (∀ u ∈ before, IsEndpoint u) ∧
    Endpoint.parse text = .error cause

/-! ## Neighbours -/

/-- One of two neighbours can be dialed. -/
def Reachable (gateway : Gateways) (pair : String × String) : Prop :=
  (gateway pair.1 pair.2).reachable ∨ (gateway pair.2 pair.1).reachable

instance (gateway : Gateways) (pair : String × String) : Decidable (Reachable gateway pair) :=
  inferInstanceAs (Decidable (_ ∨ _))

/-- Nothing keeps two neighbours apart. -/
structure Joinable (gateway : Gateways) (pair : String × String) : Prop where
  reachable : Reachable gateway pair
  proxies : ∀ uri ∈ usedProxies gateway pair, IsEndpoint uri

instance (gateway : Gateways) (pair : String × String) : Decidable (Joinable gateway pair) :=
  decidable_of_iff (Reachable gateway pair ∧ ∀ uri ∈ usedProxies gateway pair, IsEndpoint uri)
    ⟨fun h => ⟨h.1, h.2⟩, fun h => ⟨h.1, h.2⟩⟩

/-- What keeps two neighbours apart. -/
inductive Obstacle (gateway : Gateways) (pair : String × String) : ChainError → Prop where
  | unreachable (h : ¬ Reachable gateway pair) : Obstacle gateway pair (.unreachable pair.1 pair.2)
  | malformed {cause : EndpointError} (h : Reachable gateway pair)
      (first : FirstMalformed (usedProxies gateway pair) cause) :
      Obstacle gateway pair (.endpoint cause)

/-- Gateways that do not differ in whether two neighbours can be dialed and in the proxies through
which that is done. -/
structure Alike (gateway gateway' : Gateways) (pair : String × String) : Prop where
  exporting : (gateway' pair.1 pair.2).reachable = (gateway pair.1 pair.2).reachable
  importing : (gateway' pair.2 pair.1).reachable = (gateway pair.2 pair.1).reachable
  proxies : usedProxies gateway' pair = usedProxies gateway pair

section
variable {gateway gateway' : Gateways} {pair : String × String} {e : ChainError}

theorem Alike.reachable_iff (h : Alike gateway gateway' pair) :
    Reachable gateway' pair ↔ Reachable gateway pair := by
  unfold Reachable
  rw [h.exporting, h.importing]

theorem Alike.joinable (h : Alike gateway gateway' pair) (hj : Joinable gateway pair) :
    Joinable gateway' pair :=
  ⟨h.reachable_iff.2 hj.reachable, h.proxies ▸ hj.proxies⟩

theorem Alike.obstacle (h : Alike gateway gateway' pair) (ho : Obstacle gateway pair e) :
    Obstacle gateway' pair e := by
  cases ho with
  | unreachable hr => exact .unreachable fun hr' => hr (h.reachable_iff.1 hr')
  | malformed hr hfirst => exact .malformed (h.reachable_iff.2 hr) (h.proxies ▸ hfirst)

end

/-! ## Dialing -/

theorem mapM_parse_eq_error {texts : List String} {cause : EndpointError} :
    texts.mapM Endpoint.parse = .error cause ↔ FirstMalformed texts cause := mapM_eq_error

theorem isEndpoint_or_firstMalformed (texts : List String) :
    (∀ u ∈ texts, IsEndpoint u) ∨ ∃ cause, FirstMalformed texts cause := by
  cases h : texts.mapM Endpoint.parse with
  | error cause => exact .inr ⟨cause, mapM_parse_eq_error.1 h⟩
  | ok es => exact .inl (exists_mapM_eq_ok.1 ⟨es, h⟩)

theorem relays_of_firstMalformed {hops : List Hop} {cause : EndpointError} (gateway : Gateways)
    (runner : String) (h : FirstMalformed (proxies hops) cause) :
    relays gateway runner hops = .error (.endpoint cause) := by
  rw [← mapM_parse_eq_error] at h
  unfold relays
  induction hops with
  | nil => cases h
  | cons hop hops ih =>
    rw [List.mapM_cons, bind_eq_error]
    cases hop with
    | hub hub => exact .inr ⟨_, rfl, bind_eq_error.2 (.inl (ih h))⟩
    | proxy uri =>
      change (uri :: proxies hops).mapM Endpoint.parse = _ at h
      rw [List.mapM_cons] at h
      rcases bind_eq_error.1 h with h | ⟨e, he, h⟩
      · exact .inl (by rw [relay, h]; rfl)
      · rcases bind_eq_error.1 h with h | ⟨_, -, h⟩
        · exact .inr ⟨e, by rw [relay, he]; rfl, bind_eq_error.2 (.inl (ih h))⟩
        · cases h

theorem exists_relays {hops : List Hop} (gateway : Gateways) (runner : String)
    (h : ∀ uri ∈ proxies hops, IsEndpoint uri) : ∃ es, relays gateway runner hops = .ok es := by
  refine exists_mapM_eq_ok.2 fun hop hmem => ?_
  cases hop with
  | hub hub => exact ⟨_, rfl⟩
  | proxy uri =>
    obtain ⟨e, he⟩ := h uri (List.mem_filterMap.2 ⟨_, hmem, rfl⟩)
    exact ⟨e, by rw [relay, he]; rfl⟩

/-- The relays on both sides are dialed one after the other. -/
theorem dial_eq_map (gateway : Gateways) (runner target : String) :
    dial gateway runner target = (relays gateway runner ((gateway target runner).receptionProxy ++
      (gateway runner target).navigationProxy)).map (hubHop target (gateway target runner) :: ·) := by
  dsimp only [dial, relays]
  rw [List.mapM_append]
  cases (gateway target runner).receptionProxy.mapM (relay gateway runner) with
  | error e => rfl
  | ok reception =>
    cases (gateway runner target).navigationProxy.mapM (relay gateway runner) <;> rfl

theorem dial_of_firstMalformed {gateway : Gateways} {runner target : String}
    {cause : EndpointError} (h : FirstMalformed (proxiesTo gateway runner target) cause) :
    dial gateway runner target = .error (.endpoint cause) := by
  rw [dial_eq_map, map_eq_error]
  exact relays_of_firstMalformed gateway runner h

theorem exists_dial {gateway : Gateways} {runner target : String}
    (h : ∀ uri ∈ proxiesTo gateway runner target, IsEndpoint uri) :
    ∃ hops, dial gateway runner target = .ok hops := by
  obtain ⟨es, hes⟩ := exists_relays gateway runner h
  exact ⟨_, (dial_eq_map ..).trans (map_eq_ok.2 ⟨es, hes, rfl⟩)⟩

/-! ## Joining -/

section
variable {gateway : Gateways} {pair : String × String} {e : ChainError}

theorem joinable_or_obstacle (gateway : Gateways) (pair : String × String) :
    Joinable gateway pair ∨ ∃ e, Obstacle gateway pair e := by
  by_cases hr : Reachable gateway pair
  · rcases isEndpoint_or_firstMalformed (usedProxies gateway pair) with h | ⟨cause, h⟩
    · exact .inl ⟨hr, h⟩
    · exact .inr ⟨_, .malformed hr h⟩
  · exact .inr ⟨_, .unreachable hr⟩

theorem joint_of_obstacle (h : Obstacle gateway pair e) :
    joint gateway pair.1 pair.2 = .error e := by
  unfold joint
  cases h with
  | unreachable hr => rw [if_neg fun he => hr (.inl he), if_neg fun hi => hr (.inr hi)]
  | malformed hr hfirst =>
    unfold usedProxies at hfirst
    split at hfirst
    next he => rw [if_pos he, map_eq_error, dial_of_firstMalformed hfirst]
    next he =>
      rw [if_neg he, if_pos (hr.resolve_left he), map_eq_error, dial_of_firstMalformed hfirst]

theorem joint_of_joinable (h : Joinable gateway pair) :
    ∃ j, joint gateway pair.1 pair.2 = .ok j := by
  obtain ⟨hr, hproxies⟩ := h
  unfold joint
  unfold usedProxies at hproxies
  split at hproxies
  next he =>
    obtain ⟨hops, hdial⟩ := exists_dial hproxies
    rw [if_pos he, hdial]
    exact ⟨_, rfl⟩
  next he =>
    obtain ⟨hops, hdial⟩ := exists_dial hproxies
    rw [if_neg he, if_pos (hr.resolve_left he), hdial]
    exact ⟨_, rfl⟩

theorem joint_eq_error_iff : joint gateway pair.1 pair.2 = .error e ↔ Obstacle gateway pair e := by
  refine ⟨fun h => ?_, joint_of_obstacle⟩
  rcases joinable_or_obstacle gateway pair with hj | ⟨e', ho⟩
  · obtain ⟨j, hj⟩ := joint_of_joinable hj
    cases h.symm.trans hj
  · cases h.symm.trans (joint_of_obstacle ho)
    exact ho

theorem exists_joint_iff : (∃ j, joint gateway pair.1 pair.2 = .ok j) ↔ Joinable gateway pair := by
  refine ⟨fun ⟨j, h⟩ => ?_, joint_of_joinable⟩
  rcases joinable_or_obstacle gateway pair with hj | ⟨e, ho⟩
  · exact hj
  · cases h.symm.trans (joint_of_obstacle ho)

end

/-! ## Building -/

section
variable {t : Tunnel} {gateway : Gateways} {way : List String}

theorem joints_eq_error_iff {e : ChainError} : joints gateway way = .error e ↔
    ∃ before pair after, Chains.neighbours way = before ++ pair :: after ∧
      (∀ p ∈ before, Joinable gateway p) ∧ Obstacle gateway pair e := by
  unfold joints
  simp only [mapM_eq_error, exists_joint_iff, joint_eq_error_iff]

theorem exists_joints_iff : (∃ js, joints gateway way = .ok js) ↔
    ∀ pair ∈ Chains.neighbours way, Joinable gateway pair := by
  unfold joints
  simp only [exists_mapM_eq_ok, exists_joint_iff]

/-- There is a pair of neighbours on every way of two hubs or more, and only there. -/
theorem neighbours_eq_nil_iff : Chains.neighbours way = [] ↔ way.length < 2 := by
  match way with
  | [] | [_] => simp [Chains.neighbours]
  | _ :: _ :: _ => simp [Chains.neighbours]

/-- The bounds are made of the joints of a way that is long enough. -/
theorem bounds_eq (t : Tunnel) (gateway : Gateways) (way : List String) :
    t.bounds gateway way = if way.length < 2 then .error (.shortWay way)
      else (joints gateway way).map fun js =>
        (Chains.merge way (.ofList (t.linksOf t.origin js))).authorize t.identityFile := by
  unfold bounds chains
  rw [links_eq_map]
  split
  · rfl
  · cases joints gateway way <;> rfl

theorem bounds_eq_error_iff {e : ChainError} : t.bounds gateway way = .error e ↔
    (way.length < 2 ∧ e = .shortWay way) ∨
    ∃ before pair after, Chains.neighbours way = before ++ pair :: after ∧
      (∀ p ∈ before, Joinable gateway p) ∧ Obstacle gateway pair e := by
  rw [bounds_eq, ← joints_eq_error_iff]
  split
  next hshort =>
    have hnone : joints gateway way = .ok [] := by
      unfold joints
      rw [neighbours_eq_nil_iff.2 hshort]
      rfl
    rw [hnone]
    simp [hshort, eq_comm]
  next hlong => rw [map_eq_error, or_iff_right fun h => hlong h.1]

theorem exists_bounds_iff : (∃ bs, t.bounds gateway way = .ok bs) ↔
    2 ≤ way.length ∧ ∀ pair ∈ Chains.neighbours way, Joinable gateway pair := by
  rw [bounds_eq, ← exists_joints_iff]
  split
  next hshort => exact ⟨fun ⟨_, h⟩ => (nomatch h), fun h => absurd h.1 (Nat.not_le.2 hshort)⟩
  next hlong =>
    refine ⟨fun ⟨bs, h⟩ => ⟨Nat.not_lt.1 hlong, ?_⟩, fun ⟨_, js, hjs⟩ => ?_⟩
    · obtain ⟨js, hjs, -⟩ := map_eq_ok.1 h
      exact ⟨js, hjs⟩
    · rw [hjs]
      exact ⟨_, rfl⟩

/-- Gateways look alike at every pair that is looked at: all pairs before it can be joined. -/
def AlikeAlong (gateway gateway' : Gateways) (way : List String) : Prop :=
  ∀ before pair after, Chains.neighbours way = before ++ pair :: after →
    (∀ p ∈ before, Joinable gateway p) → Alike gateway gateway' pair

theorem AlikeAlong.joinable {gateway' : Gateways} (h : AlikeAlong gateway gateway' way)
    {before after : List (String × String)} (hsplit : Chains.neighbours way = before ++ after)
    (hjoinable : ∀ p ∈ before, Joinable gateway p) : ∀ p ∈ before, Joinable gateway' p := by
  intro p hp
  obtain ⟨front, back, rfl⟩ := List.append_of_mem hp
  have hfront : ∀ q ∈ front, Joinable gateway q :=
    fun q hq => hjoinable q (List.mem_append_left _ hq)
  rw [List.append_assoc] at hsplit
  exact (h front p _ hsplit hfront).joinable (hjoinable p hp)

theorem bounds_of_alikeAlong {gateway' : Gateways} (h : AlikeAlong gateway gateway' way)
    {e : ChainError} : t.bounds gateway' way = .error e ↔ t.bounds gateway way = .error e := by
  cases hbounds : t.bounds gateway way with
  | error e' =>
    have hsame : t.bounds gateway' way = .error e' := by
      rw [bounds_eq_error_iff] at hbounds ⊢
      refine hbounds.imp_right ?_
      rintro ⟨before, pair, after, hsplit, hjoinable, hobstacle⟩
      exact ⟨before, pair, after, hsplit, h.joinable hsplit hjoinable,
        (h before pair after hsplit hjoinable).obstacle hobstacle⟩
    rw [hsame]
  | ok bs =>
    obtain ⟨hlength, hjoinable⟩ := exists_bounds_iff.1 ⟨bs, hbounds⟩
    have hall := h.joinable (List.append_nil _).symm hjoinable
    obtain ⟨bs', hbs'⟩ := (exists_bounds_iff (t := t)).2 ⟨hlength, hall⟩
    rw [hbs']
    exact ⟨fun h => (nomatch h), fun h => (nomatch h)⟩

end

/-- A tunnel along a way is built unless the way is too short or has two neighbours that cannot be
joined, and the first such pair decides the error. Nothing else matters: gateways that look alike
at every pair up to that one fail alike. -/
theorem bounds_fail_leftmost (t : Tunnel) (gateway : Gateways) (way : List String) :
    (∀ e, t.bounds gateway way = .error e ↔
      (way.length < 2 ∧ e = .shortWay way) ∨
      ∃ before pair after, Chains.neighbours way = before ++ pair :: after ∧
        (∀ p ∈ before, Joinable gateway p) ∧ Obstacle gateway pair e) ∧
    ((∃ bs, t.bounds gateway way = .ok bs) ↔
      2 ≤ way.length ∧ ∀ pair ∈ Chains.neighbours way, Joinable gateway pair) ∧
    ∀ gateway', AlikeAlong gateway gateway' way →
      ∀ e, t.bounds gateway' way = .error e ↔ t.bounds gateway way = .error e :=
  ⟨fun _ => bounds_eq_error_iff, exists_bounds_iff, fun _ h _ => bounds_of_alikeAlong h⟩

/-- Between `b` and `c` two proxies are no endpoints; `c` and `d` cannot be joined either. Proxies
that are no endpoints stand where nobody reads them, too. -/
def crossed : Gateways := fun hub peer =>
  match hub, peer with
  | "a", _ => ⟨true, "a:22", [], [], [.proxy "unix://v"], [.proxy "socks5://p"]⟩
  | "b", "c" => ⟨false, "", [], [], [.proxy "nowhere"], [.proxy "unix://w"]⟩
  | "c", "b" => ⟨true, "c:22", [], [], [], [.hub "a", .proxy "socks5://q", .proxy "unix://x"]⟩
  | _, _ => .unknown

/-- The same gateways up to `c`, but for the proxies that nobody reads. -/
def cleared : Gateways := fun hub peer =>
  match hub, peer with
  | "a", _ => ⟨true, "a:22", [], [], [], [.proxy "socks5://p"]⟩
  | "b", "c" => ⟨false, "", [], [], [.proxy "nowhere"], []⟩
  | "c", "b" => ⟨true, "c:22", [], [], [], [.hub "a", .proxy "socks5://q", .proxy "unix://x"]⟩
  | "d", _ => ⟨true, "d:22", [], [], [], []⟩
  | _, _ => .unknown

/-- A tunnel that is not built along a way that `crossed` and `cleared` obstruct. -/
def stray : Tunnel := ⟨"web", ⟨"shop", "front"⟩, 80, 40000, "/key"⟩

/-- The second proxy through which `b` dials decides. -/
theorem bounds_fail_leftmost_crossed :
    stray.bounds crossed ["a", "b", "c", "d"] = .error (.endpoint (.relativeSocket "unix://x")) ∧
    AlikeAlong crossed cleared ["a", "b", "c", "d"] ∧
    stray.bounds cleared ["a", "b", "c", "d"] =
      .error (.endpoint (.relativeSocket "unix://x")) := by
  obtain ⟨hfails, -, halike⟩ := bounds_fail_leftmost stray crossed ["a", "b", "c", "d"]
  have hcrossed := (hfails (.endpoint (.relativeSocket "unix://x"))).2
    (.inr ⟨[("a", "b")], ("b", "c"), [("c", "d")], rfl, by decide +kernel,
      .malformed (by decide) ⟨["socks5://q"], "unix://x", ["nowhere"], by decide +kernel,
        by decide +kernel, rfl⟩⟩)
  have hsame : AlikeAlong crossed cleared ["a", "b", "c", "d"] := by
    intro before pair after hsplit hjoinable
    match before with
    | [] =>
      cases hsplit
      exact ⟨rfl, rfl, rfl⟩
    | [_] =>
      cases hsplit
      exact ⟨rfl, rfl, rfl⟩
    | _ :: p :: _ =>
      -- Nothing behind `b` and `c` is looked at.
      have hp : ("b", "c") = p := (List.cons.inj (List.cons.inj hsplit).2).1
      have hjoinable : Joinable crossed ("b", "c") :=
        hp ▸ hjoinable p (List.mem_cons_of_mem _ (List.mem_cons_self ..))
      exact absurd hjoinable (by decide +kernel)
  exact ⟨hcrossed, hsame, (halike cleared hsame _).2 hcrossed⟩

end HubFederation.Tunnel
