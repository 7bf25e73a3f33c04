import Mathlib.Data.List.Chain
import HubFederation.Proofs.Status.Desk

/-!
# Statuses and what the control cluster stores

A patch leaves texts out that are empty, so it does not take a text away that was written
before. It never has to: while a route is known, what its status names is named by every later
status. So the stored object has members that the next status has as well, and writing all
updates of a route in order leaves the status that was handed out last.

* `Fits`: what holds of a route at a desk between any two deeds.
* `agrees_step`, `agrees_run`: every deed keeps it, and so does every run.
* `agreement`: a board knows what the control cluster will have stored.
-/
namespace HubFederation

/-! ## Texts that stay -/

theorem ne_empty_of_append {s t : String} (h : s ≠ "") : s ++ t ≠ "" :=
  fun he => h (String.append_eq_empty_iff.1 he).1

theorem intercalate_ne_empty {way : List String} (hne : way ≠ []) (hall : "" ∉ way) :
    ",".intercalate way ≠ "" := by
  cases way with
  | nil => exact absurd rfl hne
  | cons hub rest =>
    have hhub : hub ≠ "" := fun he => hall (he ▸ List.mem_cons_self ..)
    cases rest with
    | nil => rwa [String.intercalate_singleton]
    | cons hub' rest =>
      rw [String.intercalate_cons_cons]
      exact ne_empty_of_append (ne_empty_of_append hhub)

theorem RouteEnd.text_ne_empty (e : RouteEnd) : e.text ≠ "" := by
  intro he
  unfold text at he
  have hslash := (String.append_eq_empty_iff.1 (String.append_eq_empty_iff.1 he).1).2
  exact absurd hslash (by decide)

/-- The way that a report names has hubs, and they have names. -/
def Report.NamesWay (r : Report) : Prop :=
  ∀ way, r.way = some way → way ≠ [] ∧ "" ∉ way

namespace RouteState

variable {s s' : RouteState}

/-- What the state `s` names is named by `s'`, and the same was handed out. -/
structure Grows (s s' : RouteState) : Prop where
  published : s'.published = s.published
  source : s.source ≠ "" → s'.source ≠ ""
  target : s.target ≠ "" → s'.target ≠ ""
  way : s.way ≠ "" → s'.way ≠ ""
  lastSynced : s.lastSynced.isSome → s'.lastSynced.isSome

theorem Grows.trans {s'' : RouteState} (h : s.Grows s') (h' : s'.Grows s'') : s.Grows s'' :=
  ⟨h'.published.trans h.published, h'.source ∘ h.source, h'.target ∘ h.target, h'.way ∘ h.way,
    h'.lastSynced ∘ h.lastSynced⟩

theorem grows_record (now : Timestamp) (s : RouteState) (f : Finding) :
    s.Grows (s.record now f) := by
  refine ⟨rfl, id, id, id, fun h => ?_⟩
  unfold record
  simp only
  split
  · rfl
  · exact h

theorem grows_records (now : Timestamp) (s : RouteState) (fs : List Finding) :
    s.Grows (fs.foldl (record now) s) := by
  induction fs generalizing s with
  | nil => exact ⟨rfl, id, id, id, id⟩
  | cons f fs ih => exact (grows_record now s f).trans (ih _)

theorem grows_apply (now : Timestamp) (s : RouteState) {r : Report} (h : r.NamesWay) :
    s.Grows (s.apply now r) := by
  unfold apply
  cases hway : r.way with
  | none => exact grows_records now s r.findings
  | some way =>
    have hne := intercalate_ne_empty (h way hway).1 (h way hway).2
    have hnamed : s.Grows { s with way := ",".intercalate way } := ⟨rfl, id, id, fun _ => hne, id⟩
    exact hnamed.trans (grows_records now _ r.findings)

theorem phase_render (s : RouteState) : s.render.phase ≠ "" := by
  unfold render
  simp only
  split <;> decide

theorem Grows.within (h : s.Grows s') (hsource : s'.source ≠ "") (htarget : s'.target ≠ "") :
    s.render.Within s'.render :=
  ⟨s'.phase_render, hsource, htarget, h.way, h.lastSynced⟩

end RouteState

theorem RouteStatus.Within.trans {s s' s'' : RouteStatus} (h : s.Within s') (h' : s'.Within s'') :
    s.Within s'' :=
  ⟨h'.phase, h'.source, h'.target, h'.way ∘ h.way, h'.lastSynced ∘ h.lastSynced⟩

/-! ## Deeds that keep a route -/

/-- A deed that leaves a route known, and a report about it that names its way, if it does. -/
def Deed.Allowed (id : RouteId) : Deed → Prop
  | .report _ id' r => id' = id → r.NamesWay
  | .delete id' => id' ≠ id
  | .apply _ | .send | .written | .failed => True

theorem Deed.grows {b : StatusBoard} {id : RouteId} {s s' : RouteState} {deed : Deed}
    (hknown : b.routes.get? id = some s) (h : deed.subject? b = some (id, s'))
    (hallowed : deed.Allowed id) : s.Grows s' := by
  cases deed with
  | report now id' r =>
    obtain ⟨s₀, hs₀, heq⟩ := Option.map_eq_some_iff.1 h
    cases heq
    cases hknown.symm.trans hs₀
    exact s.grows_apply now (hallowed rfl)
  | apply route =>
    obtain ⟨id', hid, heq⟩ := Option.map_eq_some_iff.1 h
    cases heq
    unfold StatusBoard.adopted
    rw [hknown]
    exact ⟨rfl, fun _ => route.spec.source.text_ne_empty, fun _ => route.spec.target.text_ne_empty,
      fun h => h, fun h => h⟩
  | delete _ | send | written | failed => cases h

/-! ## What a desk knows about a route -/

/-- Updates that were handed out one after the other are different. -/
def Happening.Differ : Happening → Happening → Prop
  | .handedOut u, .handedOut v => u.status ≠ v.status
  | .handedOut _, .failed _ | .failed _, _ => True

namespace Desk

variable {d d' : Desk} {b : StatusBoard} {id : RouteId} {s : RouteState}
  {time : Timestamp → String}

/-- What holds of a route at a desk between any two deeds. -/
structure Fits (time : Timestamp → String) (d : Desk) (id : RouteId) (s : RouteState) : Prop where
  source : s.source ≠ ""
  target : s.target ≠ ""
  /-- What is stored is named by the next status as well. -/
  covers : (s.render.toJson time).Covers (d.stored id).status
  /-- So is what will be stored. -/
  within : ∀ u ∈ d.outstanding id, u.status.Within s.render
  /-- What was handed out last is what will be stored. -/
  agrees : ∀ status, s.published = some status →
    (d.eventually time id).Same (status.toJson time)
  /-- What was handed out last is still known, unless an update failed since. -/
  last : ∀ u, (d.history id).getLast? = some (.handedOut u) → s.published = some u.status
  differ : (d.history id).IsChain Happening.Differ

theorem Fits.of_same (h : d.Fits time id s) (hstored : d'.stored id = d.stored id)
    (hout : d'.outstanding id = d.outstanding id) (hhistory : d'.history id = d.history id) :
    d'.Fits time id s := by
  refine ⟨h.source, h.target, hstored ▸ h.covers, hout ▸ h.within, fun status hs => ?_,
    hhistory ▸ h.last, hhistory ▸ h.differ⟩
  unfold eventually
  rw [hstored, hout]
  exact h.agrees status hs

/-- A state that names what the former one did fits as well. -/
theorem Fits.grow {s' : RouteState} (h : d.Fits time id s) (hs : s.Grows s') :
    d.Fits time id s' := by
  have hsource := hs.source h.source
  have htarget := hs.target h.target
  have hwithin := hs.within hsource htarget
  exact ⟨hsource, htarget, h.covers.trans (hwithin.covers time),
    fun u hu => (h.within u hu).trans hwithin, fun status hp => h.agrees status (hs.published ▸ hp),
    fun u hu => hs.published.trans (h.last u hu), h.differ⟩

/-- The next status names everything that will be stored. -/
theorem Fits.covers_eventually (h : d.Fits time id s) :
    (s.render.toJson time).Covers (d.eventually time id) := by
  rw [eventually_eq]
  have hcovers := h.covers
  have hwithin := h.within
  generalize d.outstanding id = us at hwithin
  generalize (d.stored id).status = stored at hcovers
  induction us generalizing stored with
  | nil => exact hcovers
  | cons u us ih =>
    obtain ⟨hu, hus⟩ := List.forall_mem_cons.1 hwithin
    exact ih hus _ (RouteStatus.covers_mergePatch hcovers (hu.covers time))

/-- A state that fits still does once the board has taken it in. -/
theorem Fits.note (h : d.Fits time id s) (hb : d.board.TakesIn b id s) :
    (d.note b).Fits time id (d.board.settled s) := by
  have hout := outstanding_note hb id
  have hhistory := history_note hb id
  rw [filter_handed, if_pos rfl] at hout hhistory
  unfold StatusBoard.handed at hout hhistory
  unfold StatusBoard.settled
  by_cases hands : d.board.Hands s
  · rw [if_pos hands] at hout hhistory ⊢
    have hwithin : s.render.Within s.render :=
      ⟨s.phase_render, h.source, h.target, fun hway => hway, fun hlast => hlast⟩
    refine ⟨h.source, h.target, h.covers, fun u hu => ?_, fun status hs => ?_, fun u hu => ?_, ?_⟩
    · rw [hout] at hu
      rcases List.mem_append.1 hu with hu | hu
      · exact h.within u hu
      · rw [List.mem_singleton.1 hu]
        exact hwithin
    · cases hs
      -- the new update comes last, and names all that is stored by then
      have hmerged : (d.note b).eventually time id =
          (d.eventually time id).mergePatch (s.render.toJson time) := by
        rw [eventually_eq, eventually_eq, hout, List.foldl_append]
        rfl
      rw [hmerged]
      exact RouteStatus.same_mergePatch h.covers_eventually
    · rw [hhistory] at hu
      simp only [List.map_cons, List.map_nil, List.getLast?_append, List.getLast?_singleton,
        Option.some_or, Option.some.injEq, Happening.handedOut.injEq] at hu
      rw [← hu]
    · rw [hhistory]
      refine h.differ.append (List.isChain_singleton _) fun x hx y hy => ?_
      cases hy
      cases x with
      | failed id => trivial
      | handedOut u =>
        -- no update failed since `u`, so its status is still known, and the new one differs from it
        have hlast := h.last u hx
        exact fun he => hands.1 (hlast.trans (congrArg some he))
  · rw [if_neg hands] at hout hhistory ⊢
    exact h.of_same rfl (hout.trans (List.append_nil _)) (hhistory.trans (List.append_nil _))

/-! ## Deeds, one after the other -/

/-- The board knows a route, and what it knows fits what is stored. -/
def Agrees (time : Timestamp → String) (d : Desk) (id : RouteId) : Prop :=
  ∃ s, d.board.routes.get? id = some s ∧ d.Fits time id s

theorem Agrees.of_same (h : d.Agrees time id)
    (hknown : d'.board.routes.get? id = d.board.routes.get? id)
    (hstored : d'.stored id = d.stored id) (hout : d'.outstanding id = d.outstanding id)
    (hhistory : d'.history id = d.history id) : d'.Agrees time id := by
  obtain ⟨s, hs, hfits⟩ := h
  exact ⟨s, hknown.trans hs, hfits.of_same hstored hout hhistory⟩

theorem agrees_note (h : d.Fits time id s) (hb : d.board.TakesIn b id s) :
    (d.note b).Agrees time id :=
  ⟨_, hb.state, h.note hb⟩

/-- A patch that is written does what it would have done. -/
theorem Fits.merged {u : Update} (h : d.Fits time u.id s) (hu : d.sending = some u) :
    (d.merged time u).Fits time u.id s := by
  have hout := outstanding_of_sending hu u.id
  rw [if_pos rfl] at hout
  have hstored : (d.merged time u).stored u.id = (d.stored u.id).mergePatch (u.patch time) :=
    Function.update_self ..
  have hwithin := h.within
  rw [hout] at hwithin
  refine ⟨h.source, h.target, ?_, fun v hv => hwithin v (List.mem_append_right _ hv),
    fun status hs => ?_, h.last, h.differ⟩
  · rw [hstored, Update.status_mergePatch]
    exact RouteStatus.covers_mergePatch h.covers
      ((hwithin u (List.mem_append_left _ (List.mem_singleton.2 rfl))).covers time)
  · have hsame := h.agrees status hs
    unfold eventually at hsame ⊢
    rw [hout] at hsame
    rw [hstored]
    exact hsame

/-- After a patch that was lost, nothing is known to be handed out. -/
theorem Fits.lost {u : Update} (h : d.Fits time u.id s) (hu : d.sending = some u) :
    (d.lost u).Fits time u.id { s with published := none } := by
  have hout := outstanding_of_sending hu u.id
  rw [if_pos rfl] at hout
  have hhistory := history_lost d u u.id
  rw [if_pos rfl] at hhistory
  have hwithin := h.within
  rw [hout] at hwithin
  refine ⟨h.source, h.target, h.covers, fun v hv => hwithin v (List.mem_append_right _ hv),
    fun status hs => (nomatch hs), fun v hv => ?_, ?_⟩
  · rw [hhistory, List.getLast?_append, List.getLast?_singleton, Option.some_or] at hv
    cases hv
  · rw [hhistory]
    refine h.differ.append (List.isChain_singleton _) fun x _ y hy => ?_
    cases hy
    cases x <;> trivial

theorem agrees_step (h : d.Agrees time id) {deed : Deed} (hallowed : deed.Allowed id) :
    (d.step time deed).Agrees time id := by
  have heffect := effect_step time d deed
  generalize d.step time deed = d' at heffect ⊢
  obtain ⟨s, hknown, hfits⟩ := h
  cases heffect with
  | nothing => exact ⟨s, hknown, hfits⟩
  | @told _ id' s' b hs hb =>
    by_cases hid : id = id'
    · subst hid
      exact agrees_note (hfits.grow (Deed.grows hknown hs hallowed)) hb
    · have hnone := filter_handed d.board id' id s'
      rw [if_neg hid] at hnone
      refine Agrees.of_same ⟨s, hknown, hfits⟩ (hb.others hid) rfl ?_ ?_
      · rw [outstanding_note hb, hnone, List.append_nil]
      · rw [history_note hb, hnone, List.map_nil, List.append_nil]
  | deleted id' =>
    have hkept := SortedMap.get?_erase_of_ne d.board.routes (Ne.symm hallowed)
    exact Agrees.of_same ⟨s, hknown, hfits⟩ hkept rfl rfl rfl
  | sent hnone hq =>
    refine Agrees.of_same ⟨s, hknown, hfits⟩ rfl rfl ?_ rfl
    unfold outstanding
    rw [hnone, hq]
    rfl
  | @written u hu =>
    by_cases hid : id = u.id
    · subst hid
      exact ⟨s, hknown, hfits.merged hu⟩
    · refine Agrees.of_same ⟨s, hknown, hfits⟩ rfl (Function.update_of_ne hid _ _) ?_ rfl
      rw [outstanding_of_sending hu id, if_neg (Ne.symm hid)]
      rfl
  | @failed u hu =>
    by_cases hid : id = u.id
    · subst hid
      refine ⟨_, ?_, hfits.lost hu⟩
      change (d.board.patchFailed u.id).routes.get? u.id = _
      rw [StatusBoard.get?_patchFailed, if_pos rfl, hknown]
      rfl
    · refine Agrees.of_same ⟨s, hknown, hfits⟩ ?_ rfl ?_ ?_
      · change (d.board.patchFailed u.id).routes.get? id = _
        rw [StatusBoard.get?_patchFailed, if_neg hid]
      · rw [outstanding_of_sending hu id, if_neg (Ne.symm hid)]
        rfl
      · rw [history_lost, if_neg (Ne.symm hid), List.append_nil]

theorem agrees_run (h : d.Agrees time id) {deeds : List Deed}
    (hallowed : ∀ deed ∈ deeds, deed.Allowed id) : (d.run time deeds).Agrees time id := by
  induction deeds generalizing d with
  | nil => exact h
  | cons deed deeds ih =>
    obtain ⟨hdeed, hdeeds⟩ := List.forall_mem_cons.1 hallowed
    exact ih (agrees_step h hdeed) hdeeds

/-! ## From the first time that a route is applied -/

/-- A desk that is about to learn of a route: the route comes with the status that is stored for
it, no update of it is on its way, and its history begins. -/
structure Fresh (time : Timestamp → String) (d : Desk) (id : RouteId) (route : Route) : Prop where
  named : route.id? = some id
  unknown : d.board.routes.get? id = none
  stored : ∀ name, (d.stored id).status.member? name =
    route.status.bind fun status => (status.toJson time).member? name
  outstanding : d.outstanding id = []
  history : d.history id = []

/-- A route that was not known takes its stored status over. -/
theorem adopted_of_unknown (route : Route) (h : b.routes.get? id = none) :
    b.adopted route id =
      { route.status.elim RouteState.empty RouteState.ofStatus with
        source := route.spec.source.text
        target := route.spec.target.text } := by
  unfold StatusBoard.adopted
  rw [h]
  cases route.status <;> rfl

theorem Fresh.fits {route : Route} (h : d.Fresh time id route) :
    d.Fits time id (d.board.adopted route id) := by
  have hsource := route.spec.source.text_ne_empty
  have htarget := route.spec.target.text_ne_empty
  have hstored := h.stored
  have hstate := adopted_of_unknown route h.unknown
  refine ⟨by rwa [hstate], by rwa [hstate], fun name hname => ?_, fun u hu => ?_,
    fun status hs => ?_, fun u hu => ?_, ?_⟩
  · rw [hstate]
    cases hstatus : route.status with
    | none =>
      rw [hstored, hstatus] at hname
      cases hname
    | some status =>
      rw [hstored, hstatus] at hname
      have hwithin : status.Within (RouteState.render
          { RouteState.ofStatus status with
            source := route.spec.source.text
            target := route.spec.target.text }) :=
        ⟨RouteState.phase_render _, hsource, htarget, fun h => h, fun h => h⟩
      exact hwithin.covers time name hname
  · rw [h.outstanding] at hu
    cases hu
  · rw [hstate] at hs
    cases hstatus : route.status with
    | none =>
      rw [hstatus] at hs
      cases hs
    | some status' =>
      rw [hstatus] at hs
      cases hs
      intro name
      rw [eventually_eq, h.outstanding, List.foldl_nil, hstored, hstatus]
      rfl
  · rw [h.history] at hu
    cases hu
  · rw [h.history]
    exact .nil

theorem Fresh.agrees {route : Route} (h : d.Fresh time id route) {deeds : List Deed}
    (hallowed : ∀ deed ∈ deeds, deed.Allowed id) :
    (d.run time (.apply route :: deeds)).Agrees time id := by
  have hfirst : (d.step time (.apply route)).Agrees time id :=
    agrees_note h.fits (StatusBoard.takesIn_apply h.named)
  exact agrees_run hfirst hallowed

/-! ## A desk with room for one update -/

/-- A desk with room for one update, where no route has a status yet. -/
def narrow : Desk := ⟨.ofCapacity 1, none, fun _ => .obj [("kind", .str "Route")], []⟩

def lasting : RouteId := ⟨"default", "db"⟩

def lastingRoute : Route :=
  ⟨lasting.ns, lasting.name, ⟨⟨"east", ⟨"data", "db"⟩⟩, ⟨"west", ⟨"data", "db"⟩⟩⟩, none⟩

/-- A report that is made within the first second. -/
def synced (ready : Bool) (nanos : Nat) : Deed :=
  .report ⟨0, nanos⟩ lasting ⟨some ["east", "west"], [⟨.routeSynced, ready, "", ""⟩]⟩

/-- The second report finds the queue full. -/
def overtaken : List Deed :=
  [.send, .written, synced true 0, synced false 1, .send, .written, synced true 2]

/-- The desk after `lastingRoute` is applied and all of this happened. -/
def settledDesk : Desk := narrow.run Timestamp.toText (.apply lastingRoute :: overtaken)

theorem fresh_narrow : narrow.Fresh Timestamp.toText lasting lastingRoute :=
  ⟨rfl, rfl, fun _ => rfl, rfl, rfl⟩

theorem allowed_overtaken : ∀ deed ∈ overtaken, deed.Allowed lasting := by
  have hway (ready : Bool) (nanos : Nat) : (synced ready nanos).Allowed lasting := by
    intro _ way hway
    cases hway
    decide
  unfold overtaken
  simp only [List.forall_mem_cons]
  exact ⟨trivial, trivial, hway true 0, hway false 1, trivial, trivial, hway true 2, nofun⟩

/-- The status of `lasting` after a report that it was synchronized. -/
def syncedStatus (nanos : Nat) : RouteStatus where
  phase := "NotReady"
  way := "east,west"
  source := "east/data/db"
  target := "west/data/db"
  lastSynced := some ⟨0, nanos⟩
  conditions := [⟨"RouteSynced", "True", "", "", ⟨0, nanos⟩, none⟩,
    ⟨"RouteReady", "False", "NotReady",
      "PortsAllocated,ExportHubReady,ImportHubReady,PathReachable", ⟨0, nanos⟩, none⟩]

/-! ## Agreement -/

/-- From the time that a route is applied first, whatever happens: what the board holds for
handed out is what will be stored; a report or a route puts its status into the queue exactly
if that is another one than was handed out last and the queue takes it; and updates that are
handed out one after the other are different unless one failed in between, so that their
patches are equal at most because different times are written alike. -/
theorem agreement {route : Route} (h : d.Fresh time id route) {deeds : List Deed}
    (hallowed : ∀ deed ∈ deeds, deed.Allowed id) :
    let d' := d.run time (.apply route :: deeds)
    (∃ s, d'.board.routes.get? id = some s ∧ ∀ status, s.published = some status →
      (d'.eventually time id).Same (status.toJson time)) ∧
    (∀ deed, deed ≠ .send → (d'.step time deed).board.outbox.queue = d'.board.outbox.queue ++
      match deed.subject? d'.board with
      | some (id', s) =>
        if s.published ≠ some s.render ∧ d'.board.outbox.isOpen = true ∧
          d'.board.outbox.queue.length < d'.board.outbox.capacity then [⟨id', s.render⟩] else []
      | none => []) ∧
    ∀ u v, [.handedOut u, .handedOut v] <:+: d'.history id → u.status ≠ v.status ∧
      (u.patch time = v.patch time ↔ u.status.Alike time v.status) := by
  obtain ⟨s, hknown, hfits⟩ := h.agrees hallowed
  refine ⟨⟨s, hknown, hfits.agrees⟩, fun deed hdeed => queue_step time _ hdeed, fun u v huv => ?_⟩
  have hpair : Happening.Differ (.handedOut u) (.handedOut v) :=
    List.isChain_pair.1 <| List.IsChain.infix hfits.differ huv
  have hid {w : Update} (hw : w ∈ [u, v]) : w.id = id := by
    have hmem : Happening.handedOut w ∈ _ := huv.subset (List.mem_map_of_mem hw)
    exact of_decide_eq_true (List.mem_filter.1 hmem).2
  have huid := hid (List.mem_cons_self ..)
  have hvid := hid (List.mem_cons_of_mem u (List.mem_singleton.2 rfl))
  exact ⟨hpair, Update.patch_eq_iff (huid.trans hvid.symm)⟩

/-- The last report is still to be written, and it is what will be stored. -/
theorem agreement_overtaken :
    narrow.Fresh Timestamp.toText lasting lastingRoute ∧
      (∀ deed ∈ overtaken, deed.Allowed lasting) ∧
      (settledDesk.eventually Timestamp.toText lasting).Same
        ((syncedStatus 2).toJson Timestamp.toText) := by
  obtain ⟨⟨s, hs, hsame⟩, -⟩ := agreement fresh_narrow allowed_overtaken
  refine ⟨fresh_narrow, allowed_overtaken, hsame _ ?_⟩
  have hpublished : (settledDesk.board.routes.get? lasting).bind (·.published) =
      some (syncedStatus 2) := by decide +kernel
  rw [settledDesk, hs] at hpublished
  exact hpublished

/-- A part of a second is not written. -/
theorem toText_nanos {t t' : Timestamp} (hs : t.seconds = t'.seconds)
    (hn : t.nanos / 1000000000 = t'.nanos / 1000000000) : t.toText = t'.toText := by
  unfold Timestamp.toText
  rw [hs, hn]

/-- A status that goes and comes back within a second is handed out again, as the same patch:
the report in between found the queue full. -/
theorem overtaken_repeats_patch :
    narrow.Fresh Timestamp.toText lasting lastingRoute ∧
      (∀ deed ∈ overtaken, deed.Allowed lasting) ∧
      [.handedOut ⟨lasting, syncedStatus 0⟩, .handedOut ⟨lasting, syncedStatus 2⟩] <:+:
        settledDesk.history lasting ∧
      Update.patch Timestamp.toText ⟨lasting, syncedStatus 0⟩ =
        Update.patch Timestamp.toText ⟨lasting, syncedStatus 2⟩ := by
  refine ⟨fresh_narrow, allowed_overtaken, ?_, ?_⟩
  · have hhistory : (settledDesk.history lasting).drop 1 =
        [.handedOut ⟨lasting, syncedStatus 0⟩, .handedOut ⟨lasting, syncedStatus 2⟩] := by
      decide +kernel
    rw [← hhistory]
    exact (List.drop_suffix 1 _).isInfix
  · have htime : Timestamp.toText ⟨0, 0⟩ = Timestamp.toText ⟨0, 2⟩ := toText_nanos rfl rfl
    refine (Update.patch_eq_iff (by rfl)).2 ?_
    exact ⟨rfl, rfl, rfl, rfl, congrArg some htime,
      .cons ⟨rfl, rfl, rfl, rfl, htime, rfl⟩ (.cons ⟨rfl, rfl, rfl, rfl, htime, rfl⟩ .nil)⟩

end Desk

end HubFederation
