import Mathlib.Data.List.Induction
import HubFederation.Proofs.Registry.Inits

/-!
# Nothing stale is known of a hub

A hub that is reset loses its client and the services that it was seen to have. What it has
got since then came with the generation that it was given: the client of an init, and what an
informer said. An init that was overtaken and an informer of an older client find another
generation, and are not listened to.

* `kept_or_reset`: a move resets a hub, or has it hear what is meant for it.
* `account_run`: so all that is known of a hub has come up since its last reset.
* `never_stale`: what that means for hubs that are ready, and for what comes too late.
-/
namespace HubFederation

namespace HubState

structure SameServices (h h' : HubState) : Prop where
  services : h'.services = h.services
  relisting : h'.relisting = h.relisting

theorem SameServices.refl (h : HubState) : SameServices h h := ⟨rfl, rfl⟩

theorem SameServices.trans {h₁ h₂ h₃ : HubState} (h : SameServices h₁ h₂)
    (h' : SameServices h₂ h₃) : SameServices h₁ h₃ :=
  ⟨h'.services.trans h.services, h'.relisting.trans h.relisting⟩

/-- What is seen of services comes from nothing else than what was said about them. -/
theorem SameServices.onService {h h' : HubState} (hs : SameServices h h') (e : ServiceEvent) :
    SameServices (h.onService e) (h'.onService e) := by
  obtain ⟨hservices, hrelisting⟩ := hs
  cases e with
  | relistBegun => exact ⟨hservices, rfl⟩
  | relisted s => exact ⟨hservices, by simp only [HubState.onService, hrelisting]⟩
  | relistDone => exact ⟨by simp only [HubState.onService, hrelisting], rfl⟩
  | changed s => exact ⟨by simp only [HubState.onService, hservices], hrelisting⟩
  | removed s => exact ⟨by simp only [HubState.onService, hservices], hrelisting⟩

/-- A hub of which nothing is known but what was said about its services. -/
def playback (events : List ServiceEvent) : HubState := events.foldl onService .empty

/-- One more thing is said, or nothing. -/
theorem SameServices.hear {events : List ServiceEvent} {h : HubState}
    (hs : SameServices (playback events) h) (e : Option ServiceEvent) :
    SameServices (playback (events ++ e.toList)) (e.elim h h.onService) := by
  unfold playback at hs ⊢
  rw [List.foldl_append]
  cases e with
  | none => exact hs
  | some e => exact hs.onService e

end HubState

namespace HubControl

/-- What a move has the informer of a hub say that came with a generation. -/
def Move.event? (name : String) (generation : Nat) : Move → Option ServiceEvent
  | .inform n g e => if n = name ∧ g = generation then some e else none
  | _ => none

/-- A hub is forgotten, or gets another generation. -/
def Resets (c : HubControl) (name : String) (m : Move) : Prop :=
  m = .deleteHub name ∨
    ((c.step m).registry.hub name).generation ≠ (c.registry.hub name).generation

variable {c : HubControl} {name : String} {m : Move} {h h' : HubState}

/-! ## One move -/

/-- A hub is not reset. It hears what the move has to say to it. -/
structure Kept (c : HubControl) (name : String) (m : Move) (h h' : HubState) : Prop where
  known : c.registry.hubs.get? name = some h
  quiet : ¬ c.Resets name m
  generation : h'.generation = h.generation
  services : HubState.SameServices ((m.event? name h.generation).elim h h.onService) h'
  client : h'.client = h.client ∨ ∃ init found, m = .succeed init found ∧
    init ∈ c.connecting ∧ init.hub = name ∧ init.generation = h.generation ∧
    h'.client = some init.kubeconfig

theorem not_resets (hne : m ≠ .deleteHub name) (known : c.registry.hubs.get? name = some h)
    (known' : (c.step m).registry.hubs.get? name = some h')
    (generation : h'.generation = h.generation) : ¬ c.Resets name m := by
  rintro (rfl | hgeneration)
  · exact hne rfl
  · rw [Registry.hub_of_known known, Registry.hub_of_known known'] at hgeneration
    exact hgeneration generation

/-- A hub that stays as it is, with nothing said to it. -/
theorem Kept.of_like (hne : m ≠ .deleteHub name) (silent : ∀ g, m.event? name g = none)
    (known : c.registry.hubs.get? name = some h)
    (known' : (c.step m).registry.hubs.get? name = some h') (hlike : h.Like h') :
    Kept c name m h h' := by
  refine ⟨known, not_resets hne known known' hlike.generation, hlike.generation, ?_,
    .inl hlike.client⟩
  rw [silent]
  exact ⟨hlike.services, hlike.relisting⟩

/-- A hub hears the informer that came with its generation, and no other. -/
theorem get?_inform (c : HubControl) (n : String) (generation : Nat) (e : ServiceEvent)
    (name : String) :
    (c.step (.inform n generation e)).registry.hubs.get? name =
      (c.registry.hubs.get? name).map fun h =>
        (Move.event? name h.generation (.inform n generation e)).elim h h.onService := by
  simp only [step, mapRegistry, Registry.serviceEvent?, Move.event?]
  by_cases hn : n = name
  · subst hn
    cases hget : c.registry.hubs.get? n with
    | none => exact hget
    | some h =>
      by_cases hgeneration : h.generation = generation
      · subst hgeneration
        cases e <;> simp [Registry.setHub, Registry.notifyServices]
      · simp [hgeneration, Ne.symm hgeneration, hget]
  · have hsame : ∀ r, (r = c.registry ∨ ∃ h, r.hubs = c.registry.hubs.insert n h) →
        r.hubs.get? name = c.registry.hubs.get? name := by
      rintro r (rfl | ⟨h, hr⟩)
      · rfl
      · rw [hr, SortedMap.get?_insert_of_ne _ _ (Ne.symm hn)]
    simp only [hn, false_and, if_false, Option.elim_none, Option.map_id']
    refine hsame _ ?_
    cases c.registry.hubs.get? n with
    | none => exact .inl rfl
    | some h =>
      simp only
      split
      · exact .inl rfl
      · cases e <;> exact .inr ⟨_, rfl⟩

/-- An informer resets no hub. -/
theorem kept_inform {n : String} {generation : Nat} {e : ServiceEvent}
    (known' : (c.step (.inform n generation e)).registry.hubs.get? name = some h') :
    ∃ h, Kept c name (.inform n generation e) h h' := by
  have hget := get?_inform c n generation e name
  rw [known'] at hget
  obtain ⟨h, known, rfl⟩ := Option.map_eq_some_iff.1 hget.symm
  have halike : h.Alike
      ((Move.event? name h.generation (.inform n generation e)).elim h h.onService) := by
    cases Move.event? name h.generation (.inform n generation e) with
    | none => exact (HubState.Like.refl h).toAlike
    | some e => exact h.alike_onService e
  exact ⟨h, known, not_resets (nomatch ·) known known' halike.generation, halike.generation,
    .refl _, .inl halike.client⟩

/-- A client that is built in time is its hub's client from then on, and resets no hub. -/
theorem kept_built {init : Init} {found : Recovery.Bindings} (mem : init ∈ c.connecting)
    (current : c.isCurrent init = true)
    (registry : (c.step (.succeed init found)).registry = c.registry.install init found)
    (known' : (c.step (.succeed init found)).registry.hubs.get? name = some h') :
    ∃ h, Kept c name (.succeed init found) h h' := by
  have hinstall : (c.registry.hubs.modify init.hub fun h =>
      { h with client := some init.kubeconfig }).get? name = some h' := by
    rw [registry] at known'
    exact known'
  rw [SortedMap.get?_modify] at hinstall
  split at hinstall
  next hn =>
    obtain ⟨h, known, rfl⟩ := Option.map_eq_some_iff.1 hinstall
    rw [← hn] at known
    have hgeneration := (Registry.isCurrent_iff.1 current).1
    rw [← hn, Registry.hub_of_known known] at hgeneration
    exact ⟨h, known, not_resets (nomatch ·) known known' rfl, rfl, ⟨rfl, rfl⟩,
      .inr ⟨init, found, rfl, mem, hn.symm, hgeneration.symm, rfl⟩⟩
  · exact ⟨h', .of_like (nomatch ·) (fun _ => rfl) hinstall known' (.refl h')⟩

/-- A hub that is known after a move was reset by it, or is kept. -/
theorem kept_or_reset (ha : c.Accounted) (m : Move)
    (known' : (c.step m).registry.hubs.get? name = some h') :
    (c.Resets name m ∧ h'.Blank) ∨ ∃ h, Kept c name m h h' := by
  by_cases hne : m = .deleteHub name
  · subst hne
    exact .inl ⟨.inl rfl, ((Registry.forgets_deleteHub c.registry name).left h' known').2.2⟩
  by_cases hinform : ∃ n g e, m = .inform n g e
  · obtain ⟨n, g, e, rfl⟩ := hinform
    exact .inr (kept_inform known')
  have silent (g : Nat) : m.event? name g = none := by
    cases m with
    | inform n g e => exact absurd ⟨n, g, e, rfl⟩ hinform
    | _ => rfl
  have same (known : c.registry.hubs.get? name = some h') : ∃ h, Kept c name m h h' :=
    ⟨h', .of_like hne silent known known' (.refl h')⟩
  have heffect := effect_step c m
  generalize hc' : c.step m = c' at heffect
  rw [hc'] at known'
  cases heffect with
  | turned turn =>
    cases turn with
    | kept hubs =>
      have hrel := hubs name
      rw [known'] at hrel
      generalize hget : c.registry.hubs.get? name = before at hrel
      cases hrel with
      | some hlike => exact .inr ⟨_, .of_like hne silent hget (hc' ▸ known') hlike⟩
    | renewed n h hubs =>
      rw [hubs] at known'
      split at known'
      next hn =>
        cases known'
        refine .inl ⟨.inr ?_, HubState.blank_reset ..⟩
        have hbounded := ha.bounded name
        rw [hc', Registry.hub_of_known (by rw [hubs, if_pos hn])]
        change c.registry.generations + 1 ≠ _
        omega
      · exact .inr (same known')
  | @forgotten n r forgets =>
    refine .inr (same ?_)
    rw [← forgets.others name fun hn => hne (by rw [hn])]
    exact known'
  | passed hubs => exact .inr (same (hubs ▸ known'))
  | dropped hubs => exact .inr (same (hubs ▸ known'))
  | @built init found _ mem current registry =>
    rw [← hc'] at known' registry
    exact .inr (kept_built mem current registry known')
  | heard => exact absurd ⟨_, _, _, rfl⟩ hinform

/-! ## Runs -/

/-- How a hub came to be known as it is: the moves `before` end with its last reset, and what
came up `since` then is all that it has. -/
structure Account (c : HubControl) (name : String) (h : HubState) (before since : List Move) :
    Prop where
  reset : ∃ ms m, before = ms ++ [m] ∧ (c.run ms).Resets name m
  undisturbed : ∀ ms m ms', since = ms ++ m :: ms' → ¬ (c.run (before ++ ms)).Resets name m
  services : (HubState.playback (since.filterMap (Move.event? name h.generation))).SameServices h
  client : ∀ kubeconfig, h.client = some kubeconfig → ∃ ms init found ms',
    since = ms ++ .succeed init found :: ms' ∧ init ∈ (c.run (before ++ ms)).connecting ∧
    init.hub = name ∧ init.generation = h.generation ∧ init.kubeconfig = kubeconfig

/-- The account begins with a reset. -/
theorem account_of_reset (c : HubControl) (ms : List Move) (hreset : (c.run ms).Resets name m)
    (hblank : h.Blank) : Account c name h (ms ++ [m]) [] := by
  refine ⟨⟨ms, m, rfl, hreset⟩, fun s m s' hs => ?_, ⟨hblank.services, hblank.relisting⟩,
    fun k hk => ?_⟩
  · cases s <;> cases hs
  · rw [hblank.client] at hk
    cases hk

/-- A move that does not reset the hub is added to the account. -/
theorem Account.concat {before since : List Move} (haccount : Account c name h before since)
    (hkept : Kept (c.run (before ++ since)) name m h h') :
    Account c name h' before (since ++ [m]) := by
  refine ⟨haccount.reset, fun s x s' hs => ?_, ?_, fun k hk => ?_⟩
  · rcases List.eq_nil_or_concat s' with rfl | ⟨s'', y, rfl⟩
    · obtain ⟨rfl, hx⟩ := List.append_inj' hs rfl
      cases hx
      exact hkept.quiet
    · rw [List.concat_eq_append, ← List.cons_append, ← List.append_assoc] at hs
      exact haccount.undisturbed s x s'' (List.append_inj' hs rfl).1
  · have hsaid : [m].filterMap (Move.event? name h.generation) =
        (m.event? name h.generation).toList := by
      rw [List.filterMap_cons]
      cases m.event? name h.generation <;> rfl
    rw [hkept.generation, List.filterMap_append, hsaid]
    exact (haccount.services.hear (m.event? name h.generation)).trans hkept.services
  · rcases hkept.client with hclient | ⟨init, found, rfl, hmem, hhub, hgeneration, hclient⟩
    · obtain ⟨s, init, found, s', rfl, hmem, hhub, hgeneration, hkubeconfig⟩ :=
        haccount.client k (hclient ▸ hk)
      refine ⟨s, init, found, s' ++ [m], ?_, hmem, hhub, ?_, hkubeconfig⟩
      · rw [List.append_assoc, List.cons_append]
      · rw [hgeneration, hkept.generation]
    · refine ⟨since, init, found, [], rfl, hmem, hhub, ?_, ?_⟩
      · rw [hgeneration, hkept.generation]
      · exact Option.some.inj (hclient.symm.trans hk)

/-- There is an account of every hub that is known. -/
theorem account_run (info : ClusterInfo) (ms : List Move) (name : String) (h : HubState)
    (known : ((ofInfo info).run ms).registry.hubs.get? name = some h) :
    ∃ before since, before ++ since = ms ∧ Account (ofInfo info) name h before since := by
  induction ms using List.reverseRecOn generalizing h with
  | nil => cases known
  | append_singleton ms m ih =>
    rw [run_concat] at known
    have ha := accounted_run (accounted_ofInfo info) ms
    rcases kept_or_reset ha m known with ⟨hreset, hblank⟩ | ⟨h₀, hkept⟩
    · exact ⟨ms ++ [m], [], List.append_nil _, account_of_reset _ ms hreset hblank⟩
    · obtain ⟨before, since, rfl, haccount⟩ := ih h₀ hkept.known
      exact ⟨before, since ++ [m], (List.append_assoc ..).symm, haccount.concat hkept⟩

/-- An init of another generation than its hub's is not current. -/
theorem isCurrent_of_ne {init : Init}
    (hne : (c.registry.hubs.get? init.hub).map (·.generation) ≠ some init.generation) :
    c.isCurrent init = false := by
  unfold isCurrent Registry.isCurrent
  cases hget : c.registry.hubs.get? init.hub with
  | none => rfl
  | some h =>
    have hgeneration : h.generation ≠ init.generation := by simpa [hget] using hne
    simp [hgeneration]

/-- What comes of an init that is out of date is dropped. -/
theorem registry_of_stale {init : Init} (stale : c.isCurrent init = false) :
    (∀ found, (c.step (.succeed init found)).registry = c.registry) ∧
    (c.step (.fail init)).registry = c.registry ∧
    (c.step (.retry init)).registry = c.registry := by
  have hsucceed (found : Recovery.Bindings) : (c.succeed init found).registry = c.registry := by
    change (if c.isCurrent init then _ else _ : HubControl).registry = _
    rw [stale]
    rfl
  have hretry : (c.retry init).registry = c.registry := by
    change (if c.isCurrent init then _ else _ : HubControl).registry = _
    rw [stale]
    rfl
  simp only [step]
  refine ⟨fun found => ?_, ?_, ?_⟩
  · split
    · exact hsucceed found
    · rfl
  · split <;> rfl
  · split
    · exact hretry
    · rfl

/-- After every run: of each hub, nothing is known but what came up since its last reset. A hub
that is ready has a specification, and its client was built from the kubeconfig that the hub
has now. What comes of an init or an informer of another generation changes nothing. -/
theorem never_stale (info : ClusterInfo) (ms : List Move) (name : String) :
    let c := (ofInfo info).run ms
    (∀ h, c.registry.hubs.get? name = some h →
      ∃ before since, before ++ since = ms ∧ Account (ofInfo info) name h before since) ∧
    (c.registry.isReady name = true →
      ((c.registry.hub name).spec.isSome ∧ (c.registry.hub name).kubeconfig.isSome) ∧
      (c.registry.hub name).client = (c.registry.hub name).kubeconfig) ∧
    (∀ init, (c.registry.hubs.get? init.hub).map (·.generation) ≠ some init.generation →
      (∀ found, (c.step (.succeed init found)).registry = c.registry) ∧
      (c.step (.fail init)).registry = c.registry ∧
      (c.step (.retry init)).registry = c.registry) ∧
    ∀ generation e, (c.registry.hubs.get? name).map (·.generation) ≠ some generation →
      c.step (.inform name generation e) = c := by
  have ha := accounted_run (accounted_ofInfo info) ms
  refine ⟨account_run info ms name, fun hready => ?_, fun init hne => ?_,
    fun generation e hne => ?_⟩
  · unfold Registry.isReady HubState.isReady at hready
    rw [Bool.and_eq_true] at hready
    obtain ⟨kubeconfig, hclient⟩ := Option.isSome_iff_exists.1 hready.2
    obtain ⟨hspec, hkubeconfig⟩ := ha.built name kubeconfig hclient
    rw [hclient, hkubeconfig]
    exact ⟨⟨hspec, rfl⟩, rfl⟩
  · exact registry_of_stale (isCurrent_of_ne hne)
  · simp only [step, mapRegistry, Registry.serviceEvent?]
    cases hget : ((ofInfo info).run ms).registry.hubs.get? name with
    | none => rfl
    | some h =>
      have hgeneration : h.generation ≠ generation := by simpa [hget] using hne
      simp only [if_pos hgeneration]
      rfl

/-- A hub gets other credentials while the client for the old ones is being built. The new
client is built first, and its informer sees a service. -/
def rotation : List Move :=
  [.applyHub "a" ⟨default, ∅⟩, .applySecret "a" (secret "old"), .take ⟨"a", 2, "old"⟩,
    .applySecret "a" (secret "new"), .take ⟨"a", 3, "new"⟩, .succeed ⟨"a", 3, "new"⟩ [],
    .inform "a" 3 (.changed ⟨default, []⟩)]
where
  secret (kubeconfig : String) : SortedMap String ByteArray :=
    (∅ : SortedMap String ByteArray).insert "kubeconfig" kubeconfig.toUTF8

/-- The client for the old credentials comes too late. -/
theorem never_stale_rotation :
    let c := (ofInfo ⟨"ferry", "tunnel", 40000, 10⟩).run rotation
    c.registry.isReady "a" = true ∧ (c.registry.hub "a").client = some "new" ∧
      (c.step (.succeed ⟨"a", 2, "old"⟩ [(⟨"b", "n", "s", 80⟩, 40000)])).registry = c.registry ∧
      c.step (.inform "a" 2 .relistDone) = c ∧
      ∃ h before since, c.registry.hubs.get? "a" = some h ∧ before ++ since = rotation ∧
        Account (ofInfo ⟨"ferry", "tunnel", 40000, 10⟩) "a" h before since := by
  obtain ⟨haccount, hready, hinit, hinform⟩ :=
    never_stale ⟨"ferry", "tunnel", 40000, 10⟩ rotation "a"
  have h : ((ofInfo ⟨"ferry", "tunnel", 40000, 10⟩).run rotation).registry.isReady "a" = true := by
    decide +kernel
  refine ⟨h, ?_, ?_, ?_, ?_⟩
  · rw [(hready h).2]
    decide +kernel
  · exact (hinit ⟨"a", 2, "old"⟩ (by decide +kernel)).1 _
  · exact hinform _ _ (by decide +kernel)
  · obtain ⟨hub, known⟩ := Option.isSome_iff_exists.1 (show (SortedMap.get?
      ((ofInfo ⟨"ferry", "tunnel", 40000, 10⟩).run rotation).registry.hubs "a").isSome by
        decide +kernel)
    obtain ⟨before, since, hmoves, ha⟩ := haccount hub known
    exact ⟨hub, before, since, known, hmoves, ha⟩

end HubControl

end HubFederation
