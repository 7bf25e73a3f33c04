import HubFederation.Proofs.Lookup
import HubFederation.Proofs.Registry.Sources

/-!
# Listings of services show as a whole

An informer lists the services of its hub, then tells of changes, and lists them again when it has
lost track. A listing may be begun anew before it is done. What is listed is set aside until the
listing is done, and then takes the place of all that was known; so the services that show are
always those of the last listing that was done since the hub was reset, with the changes after it.

* `exists_lastListing`: an informer that keeps to the order has a last listing.
* `get?_playback`: what shows of what was said to a hub.
* `services_heard`: after every run, a hub shows what it has heard since its last reset.
* `shows_last_listing`: the two together.
-/
namespace HubFederation

namespace ServiceEvent

/-- What an informer may say: listings, which are begun, told and done, or begun anew, and changes
between them. The flag tells whether a listing is under way. -/
inductive Orderly : Bool → List ServiceEvent → Prop
  | nil {underway : Bool} : Orderly underway []
  | begun {underway : Bool} {es : List ServiceEvent} :
    Orderly true es → Orderly underway (.relistBegun :: es)
  | relisted {es : List ServiceEvent} (s : Service) :
    Orderly true es → Orderly true (.relisted s :: es)
  | done {es : List ServiceEvent} : Orderly false es → Orderly true (.relistDone :: es)
  | changed {es : List ServiceEvent} (s : Service) :
    Orderly false es → Orderly false (.changed s :: es)
  | removed {es : List ServiceEvent} (s : Service) :
    Orderly false es → Orderly false (.removed s :: es)

/-- What is told of services in a listing. -/
def told (services : List Service) : List ServiceEvent := services.map .relisted

/-- A listing from its beginning to its end. -/
def listing (services : List Service) : List ServiceEvent :=
  .relistBegun :: told services ++ [.relistDone]

/-- What was listed when a listing was last done, and what was said after it. Nothing is listed
before the first listing is done. -/
def LastListing (events : List ServiceEvent) (listed : List Service) (later : List ServiceEvent) :
    Prop :=
  .relistDone ∉ later ∧
    ((∃ earlier, events = earlier ++ listing listed ++ later) ∨ listed = [] ∧ events = later)

/-- What becomes of a service by a change: it is as it says, or gone. -/
def outcome? (id : String × String) : ServiceEvent → Option (Option Service)
  | .changed s => if s.id = id then some (some s) else none
  | .removed s => if s.id = id then some none else none
  | .relistBegun | .relisted _ | .relistDone => none

/-- What shows of a service: what became of it last, or else what was last listed of it. -/
def shown (listed : List Service) (later : List ServiceEvent) (id : String × String) :
    Option Service :=
  (later.filterMap (outcome? id)).getLast?.getD (listed.filter (·.id = id)).getLast?

/-! ## The last listing -/

/-- What is done was begun, and told since then. -/
theorem Orderly.begun_before_done {underway : Bool} {before after : List ServiceEvent}
    (h : Orderly underway (before ++ .relistDone :: after)) :
    (∃ earlier listed, before = earlier ++ .relistBegun :: told listed) ∨
      underway = true ∧ ∃ listed, before = told listed := by
  -- Induction on what came before the end. The flag stands for a beginning that came before that.
  induction before generalizing underway with
  | nil =>
    cases h with
    | done h' => exact .inr ⟨rfl, [], rfl⟩
  | cons e before ih =>
    cases h with
    | begun h' =>
      rcases ih h' with ⟨earlier, listed, rfl⟩ | ⟨-, listed, rfl⟩
      · exact .inl ⟨.relistBegun :: earlier, listed, rfl⟩
      · exact .inl ⟨[], listed, rfl⟩
    | relisted s h' =>
      rcases ih h' with ⟨earlier, listed, rfl⟩ | ⟨-, listed, rfl⟩
      · exact .inl ⟨.relisted s :: earlier, listed, rfl⟩
      · exact .inr ⟨rfl, s :: listed, rfl⟩
    | done h' | changed s h' | removed s h' =>
      obtain ⟨earlier, listed, rfl⟩ := (ih h').resolve_right fun hno => nomatch hno.1
      exact .inl ⟨_ :: earlier, listed, rfl⟩

/-- Where a listing is done, one is done last. -/
theorem exists_last_done {events : List ServiceEvent} (h : .relistDone ∈ events) :
    ∃ before later, events = before ++ .relistDone :: later ∧ .relistDone ∉ later := by
  obtain ⟨later, before, hsplit, hlast⟩ := List.eq_append_cons_of_mem (List.mem_reverse.2 h)
  refine ⟨before.reverse, later.reverse, ?_, by simpa using hlast⟩
  rw [← List.reverse_inj, hsplit]
  simp

theorem exists_lastListing {events : List ServiceEvent} (h : Orderly false events) :
    ∃ listed later, LastListing events listed later := by
  by_cases hdone : .relistDone ∈ events
  · obtain ⟨before, later, rfl, hlast⟩ := exists_last_done hdone
    rcases h.begun_before_done with ⟨earlier, listed, rfl⟩ | ⟨hunderway, -⟩
    · exact ⟨listed, later, hlast, .inl ⟨earlier, by simp [listing]⟩⟩
    · cases hunderway
  · exact ⟨[], events, hdone, .inr ⟨rfl, rfl⟩⟩

/-- A listing that is under way is not the last one yet. -/
theorem LastListing.underway {events later : List ServiceEvent} {listed : List Service}
    (h : LastListing events listed later) (begun : List Service) :
    LastListing (events ++ .relistBegun :: told begun) listed
      (later ++ .relistBegun :: told begun) := by
  obtain ⟨hlast, hsplit⟩ := h
  refine ⟨by simpa [told] using hlast, ?_⟩
  rcases hsplit with ⟨earlier, rfl⟩ | ⟨rfl, rfl⟩
  · exact .inl ⟨earlier, List.append_assoc ..⟩
  · exact .inr ⟨rfl, rfl⟩

theorem shown_underway (listed begun : List Service) (later : List ServiceEvent)
    (id : String × String) :
    shown listed (later ++ .relistBegun :: told begun) id = shown listed later id := by
  have htold : (told begun).filterMap (outcome? id) = [] := by
    refine List.filterMap_eq_nil_iff.2 fun e he => ?_
    obtain ⟨s, -, rfl⟩ := List.mem_map.1 he
    rfl
  unfold shown
  rw [List.filterMap_append, List.filterMap_cons_none rfl, htold, List.append_nil]

end ServiceEvent

namespace HubState

open ServiceEvent

/-! ## What a hub makes of it -/

/-- Of services that are entered one by one, the last of each name stays. -/
theorem get?_foldl_insert_id (ss : List Service) (m : ServiceMap) (id : String × String) :
    (ss.foldl (fun m s => m.insert s.id s) m).get? id =
      (ss.filter (·.id = id)).getLast?.or (m.get? id) := by
  have hinsert (s : Service) (m : ServiceMap) :
      (m.insert s.id s).get? id = if s.id = id then some s else m.get? id := by
    rw [SortedMap.get?_insert_ite]
    simp only [eq_comm]
  rw [read_foldl_filter (SortedMap.get? · id) hinsert]
  cases (ss.filter (·.id = id)).getLast? <;> rfl

/-- What is told of a listing is set aside. -/
theorem foldl_relisted {h : HubState} {m : ServiceMap} (hm : h.relisting = some m)
    (listed : List Service) : (told listed).foldl onService h =
      { h with relisting := some (listed.foldl (fun m s => m.insert s.id s) m) } := by
  induction listed generalizing h m with
  | nil => rw [List.foldl_nil, ← hm]; rfl
  | cons s listed ih =>
    have hnext : (h.onService (.relisted s)).relisting = some (m.insert s.id s) := by
      simp only [onService, hm, Option.map_some]
    unfold told at ih ⊢
    rw [List.map_cons, List.foldl_cons, ih hnext]
    rfl

/-- A listing that is done takes the place of all that was known. -/
theorem services_foldl_listing (h : HubState) (listed : List Service) :
    ((listing listed).foldl onService h).services =
      listed.foldl (fun m s => m.insert s.id s) ∅ := by
  unfold listing
  have hbegun : (h.onService .relistBegun).relisting = some ∅ := rfl
  rw [List.cons_append, List.foldl_cons, List.foldl_append, foldl_relisted hbegun]
  rfl

/-- Only changes show at once. -/
theorem get?_onService {h : HubState} {e : ServiceEvent} (hne : e ≠ .relistDone)
    (id : String × String) :
    (h.onService e).services.get? id = (outcome? id e).getD (h.services.get? id) := by
  cases e with
  | relistBegun => rfl
  | relisted s => rfl
  | relistDone => exact absurd rfl hne
  | changed s =>
    simp only [onService, outcome?, SortedMap.get?_insert_ite]
    by_cases hid : s.id = id
    · rw [if_pos hid.symm, if_pos hid]; rfl
    · rw [if_neg (Ne.symm hid), if_neg hid]; rfl
  | removed s =>
    simp only [onService, outcome?, SortedMap.get?_erase_ite]
    by_cases hid : s.id = id
    · rw [if_pos hid.symm, if_pos hid]; rfl
    · rw [if_neg (Ne.symm hid), if_neg hid]; rfl

/-- While no listing is done, the last change of a service is what shows of it. -/
theorem get?_foldl_onService {later : List ServiceEvent} (hlast : .relistDone ∉ later)
    (h : HubState) (id : String × String) :
    (later.foldl onService h).services.get? id =
      (later.filterMap (outcome? id)).getLast?.getD (h.services.get? id) :=
  read_foldl (fun h : HubState => h.services.get? id) (outcome? id)
    (fun _ hmem _ => get?_onService (fun he => hlast (he ▸ hmem)) id) h

/-- What shows of what was said: the last listing that was done, and the changes after it. -/
theorem get?_playback {events later : List ServiceEvent} {listed : List Service}
    (h : LastListing events listed later) (id : String × String) :
    (playback events).services.get? id = shown listed later id := by
  obtain ⟨hlast, ⟨earlier, rfl⟩ | ⟨rfl, rfl⟩⟩ := h
  · unfold playback shown
    rw [List.foldl_append, get?_foldl_onService hlast, List.foldl_append, services_foldl_listing,
      get?_foldl_insert_id, SortedMap.get?_empty, Option.or_none]
  · exact get?_foldl_onService hlast .empty id

end HubState

namespace HubControl

open ServiceEvent

variable {c : HubControl} {name : String} {m : Move}

/-! ## What a hub has heard -/

instance (m : Move) (name : String) : Decidable (m = .deleteHub name) :=
  match m with
  | .deleteHub n => decidable_of_iff (n = name) ⟨congrArg _, Move.deleteHub.inj⟩
  | .applyHub .. | .applySecret .. | .deleteSecret _ | .answer .. | .bind _ | .take _
  | .succeed .. | .fail _ | .retry _ | .inform .. => isFalse nofun

instance (c : HubControl) (name : String) (m : Move) : Decidable (c.Resets name m) :=
  inferInstanceAs (Decidable (_ ∨ _))

/-- A move, and what the informer of a hub has said since the hub was reset. An informer is heard
if it came with the generation of its hub. -/
def listen (name : String) (s : HubControl × List ServiceEvent) (m : Move) :
    HubControl × List ServiceEvent :=
  (s.1.step m, if s.1.Resets name m then [] else s.2 ++
    ((s.1.registry.hubs.get? name).bind fun h => m.event? name h.generation).toList)

/-- What a hub has heard since its last reset. -/
def heard (c : HubControl) (name : String) (ms : List Move) : List ServiceEvent :=
  (ms.foldl (listen name) (c, [])).2

theorem fst_foldl_listen (c : HubControl) (name : String) (ms : List Move) :
    (ms.foldl (listen name) (c, [])).1 = c.run ms := by
  induction ms using List.reverseRecOn with
  | nil => rfl
  | append_singleton ms m ih =>
    rw [List.foldl_append, List.foldl_cons, List.foldl_nil, run_concat, ← ih]
    rfl

theorem heard_concat (c : HubControl) (name : String) (ms : List Move) (m : Move) :
    c.heard name (ms ++ [m]) = if (c.run ms).Resets name m then [] else c.heard name ms ++
      (((c.run ms).registry.hubs.get? name).bind fun h => m.event? name h.generation).toList := by
  unfold heard
  rw [List.foldl_append, List.foldl_cons, List.foldl_nil, ← fst_foldl_listen c name ms]
  rfl

/-- A hub that was known stays known, unless it is forgotten. -/
theorem unknown_of_unknown_step (hne : m ≠ .deleteHub name)
    (unknown : (c.step m).registry.hubs.get? name = none) :
    c.registry.hubs.get? name = none := by
  have heffect := effect_step c m
  generalize c.step m = c' at heffect unknown
  cases heffect with
  | turned turn =>
    cases turn with
    | kept hubs =>
      have hrel := hubs name
      rw [unknown] at hrel
      generalize c.registry.hubs.get? name = before at hrel
      cases hrel
      rfl
    | renewed n h hubs =>
      rw [hubs] at unknown
      split at unknown
      · cases unknown
      · exact unknown
  | @forgotten n r forgets =>
    rw [← forgets.others name fun hn => hne (by rw [hn])]
    exact unknown
  | passed hubs => exact hubs ▸ unknown
  | dropped hubs => exact hubs ▸ unknown
  | @built init found _ mem current registry =>
    rw [registry] at unknown
    change SortedMap.get? (c.registry.hubs.modify _ _) name = none at unknown
    rw [SortedMap.get?_modify] at unknown
    split at unknown
    next hn => exact hn ▸ Option.map_eq_none_iff.1 unknown
    · exact unknown
  | @heard n h e _ known hubs =>
    rw [hubs, SortedMap.get?_insert_ite] at unknown
    split at unknown
    · cases unknown
    · exact unknown

/-- Nothing is known of the services of a hub but what it has heard since its last reset. -/
theorem services_heard (info : ClusterInfo) (ms : List Move) (name : String) :
    (HubState.playback ((ofInfo info).heard name ms)).SameServices
      (((ofInfo info).run ms).registry.hub name) := by
  induction ms using List.reverseRecOn with
  | nil => exact .refl _
  | append_singleton ms m ih =>
    rw [heard_concat, run_concat]
    have ha := accounted_run (accounted_ofInfo info) ms
    cases known : (((ofInfo info).run ms).step m).registry.hubs.get? name with
    | none =>
      -- A hub that is not known was forgotten just now, or was not known before.
      rw [Registry.hub_of_unknown known]
      split
      · exact .refl _
      next hquiet =>
        have hbefore := unknown_of_unknown_step (fun h => hquiet (.inl h)) known
        rw [Registry.hub_of_unknown hbefore] at ih
        rw [hbefore, Option.bind_none, Option.toList_none, List.append_nil]
        exact ih
    | some h' =>
      rw [Registry.hub_of_known known]
      rcases kept_or_reset ha m known with ⟨hreset, hblank⟩ | ⟨h, hkept⟩
      · rw [if_pos hreset]
        exact ⟨hblank.services, hblank.relisting⟩
      · rw [Registry.hub_of_known hkept.known] at ih
        rw [if_neg hkept.quiet, hkept.known, Option.bind_some]
        exact (ih.hear (m.event? name h.generation)).trans hkept.services

/-- After every run, if the informer of a hub has kept to the order since the hub was last reset,
the services that show are those of the last listing that was done since then, as each was last
listed, with the changes after it. While a listing is under way, those show that did before. -/
theorem shows_last_listing (info : ClusterInfo) (ms : List Move) (name : String)
    (orderly : Orderly false ((ofInfo info).heard name ms)) :
    (∃ listed later, LastListing ((ofInfo info).heard name ms) listed later) ∧
    (∀ listed later, LastListing ((ofInfo info).heard name ms) listed later →
      ∀ id, ((ofInfo info).run ms).registry.service? name id = shown listed later id) ∧
    ∀ before begun, (ofInfo info).heard name ms = before ++ .relistBegun :: told begun →
      ∀ listed later, LastListing before listed later →
        ∀ id, ((ofInfo info).run ms).registry.service? name id = shown listed later id := by
  have hshown : ∀ listed later, LastListing ((ofInfo info).heard name ms) listed later →
      ∀ id, ((ofInfo info).run ms).registry.service? name id = shown listed later id := by
    intro listed later hlast id
    rw [← HubState.get?_playback hlast]
    unfold Registry.service?
    rw [(services_heard info ms name).services]
  refine ⟨exists_lastListing orderly, hshown, fun before begun hheard listed later hlast id => ?_⟩
  rw [← shown_underway listed begun later id]
  exact hshown _ _ (hheard ▸ hlast.underway begun) id

/-- A hub gets other credentials in the middle of a listing, whose end comes too late. The informer
of the new client begins its listing anew, is told of a service twice, and tells of changes before
it begins the next listing. -/
def interrupted : List Move :=
  [.applyHub "a" ⟨default, ∅⟩, .applySecret "a" (rotation.secret "old"), .take ⟨"a", 2, "old"⟩,
    .succeed ⟨"a", 2, "old"⟩ [], .inform "a" 2 .relistBegun,
    .inform "a" 2 (.relisted (svc "lost" 80)), .applySecret "a" (rotation.secret "new"),
    .take ⟨"a", 3, "new"⟩, .inform "a" 2 .relistDone, .succeed ⟨"a", 3, "new"⟩ [],
    .inform "a" 3 .relistBegun, .inform "a" 3 (.relisted (svc "dropped" 80)),
    .inform "a" 3 .relistBegun, .inform "a" 3 (.relisted (svc "db" 80)),
    .inform "a" 3 (.relisted (svc "web" 80)), .inform "a" 3 (.relisted (svc "db" 81)),
    .inform "a" 3 .relistDone, .inform "a" 3 (.changed (svc "mail" 25)),
    .inform "a" 3 (.removed (svc "web" 80)), .inform "a" 3 .relistBegun,
    .inform "a" 3 (.relisted (svc "next" 80))]
where
  svc (name : String) (port : Int) : Service :=
    ⟨{ (default : Metadata) with name := some name }, [⟨none, none, port, none⟩]⟩

/-- Each service shows as it was last listed, or as it was changed after that. -/
theorem shows_last_listing_interrupted :
    let c := ofInfo ⟨"ferry", "tunnel", 40000, 10⟩
    let before := [.relistBegun, .relisted (interrupted.svc "dropped" 80), .relistBegun,
      .relisted (interrupted.svc "db" 80), .relisted (interrupted.svc "web" 80),
      .relisted (interrupted.svc "db" 81), .relistDone, .changed (interrupted.svc "mail" 25),
      .removed (interrupted.svc "web" 80)]
    let listed := [interrupted.svc "db" 80, interrupted.svc "web" 80, interrupted.svc "db" 81]
    let later := [.changed (interrupted.svc "mail" 25), .removed (interrupted.svc "web" 80)]
    Orderly false (c.heard "a" interrupted) ∧
    c.heard "a" interrupted = before ++ .relistBegun :: told [interrupted.svc "next" 80] ∧
    LastListing before listed later ∧
    ["lost", "dropped", "db", "web", "mail", "next"].map
        (fun name => (c.run interrupted).registry.service? "a" ("", name)) =
      [none, none, some (interrupted.svc "db" 81), none, some (interrupted.svc "mail" 25),
        none] := by
  intro c before listed later
  have hheard : c.heard "a" interrupted =
      before ++ .relistBegun :: told [interrupted.svc "next" 80] := by decide +kernel
  have horderly : Orderly false (c.heard "a" interrupted) := by
    rw [hheard]
    exact .begun (.relisted _ (.begun (.relisted _ (.relisted _ (.relisted _ (.done
      (.changed _ (.removed _ (.begun (.relisted _ .nil))))))))))
  have hlast : LastListing before listed later :=
    ⟨by decide, .inl ⟨[.relistBegun, .relisted (interrupted.svc "dropped" 80)], rfl⟩⟩
  obtain ⟨-, -, hshown⟩ :=
    shows_last_listing ⟨"ferry", "tunnel", 40000, 10⟩ interrupted "a" horderly
  refine ⟨horderly, hheard, hlast, ?_⟩
  rw [List.map_congr_left fun name _ => hshown before _ hheard listed later hlast ("", name)]
  decide +kernel

end HubControl

end HubFederation
