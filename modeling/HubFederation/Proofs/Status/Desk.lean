import Mathlib.Logic.Function.Basic
import HubFederation.Proofs.Status.MergePatch
import HubFederation.Status.Patcher

/-!
# From the board to the control cluster

A desk is a board together with the update that is being sent, the objects that the control
cluster has stored, and a log. What happens at a desk is a list of deeds, in whatever order
they come: reports, routes that are applied or deleted, and updates that are sent, written or
not. What a patcher does is such a list, so what holds after every one holds after it.

* `takesIn_report`, `takesIn_apply`: what a board does with the state of a route.
* `effect_step`, `becomes_step`: everything that a deed can do, to a desk and to one route.
* `queue_step`: which updates a deed puts into the queue.
* `run_patcher`: sending is a list of deeds, whatever the control cluster answers.
-/
namespace HubFederation

/-! ## Handing out -/

namespace Outbox

/-- There is a receiver, and room for one more update. -/
def Accepts (o : Outbox) : Prop := o.isOpen = true ∧ o.queue.length < o.capacity

instance (o : Outbox) : Decidable o.Accepts := inferInstanceAs (Decidable (_ ∧ _))

theorem push_of_accepts {o : Outbox} (h : o.Accepts) (u : Update) :
    o.push u = ({ o with queue := o.queue ++ [u], enqueued := o.enqueued + 1 }, true) := by
  unfold push
  rw [h.1, if_neg (by decide), if_neg (Nat.not_le.2 h.2)]

theorem push_of_not_accepts {o : Outbox} (h : ¬ o.Accepts) (u : Update) :
    ∃ o', o.push u = (o', false) ∧ o'.queue = o.queue := by
  unfold push
  split
  · exact ⟨o, rfl, rfl⟩
  next hopen =>
    rw [Bool.not_eq_true', Bool.not_eq_false] at hopen
    rw [if_pos (Nat.not_lt.1 fun hroom => h ⟨hopen, hroom⟩)]
    exact ⟨_, rfl, rfl⟩

end Outbox

namespace StatusBoard

variable {b b' : StatusBoard} {id : RouteId} {s : RouteState}

/-- The status of a route is another one than was handed out last, and the outbox takes it. -/
def Hands (b : StatusBoard) (s : RouteState) : Prop :=
  s.published ≠ some s.render ∧ b.outbox.Accepts

instance (b : StatusBoard) (s : RouteState) : Decidable (b.Hands s) :=
  inferInstanceAs (Decidable (_ ∧ _))

/-- What comes into the queue with the state of a route. -/
def handed (b : StatusBoard) (id : RouteId) (s : RouteState) : List Update :=
  if b.Hands s then [⟨id, s.render⟩] else []

/-- The state of a route once it had the chance to be handed out. -/
def settled (b : StatusBoard) (s : RouteState) : RouteState :=
  if b.Hands s then { s with published := some s.render } else s

/-- The board `b'` knows what `b` did, and the state `s` of one route, which it handed out if
that had to be. -/
structure TakesIn (b b' : StatusBoard) (id : RouteId) (s : RouteState) : Prop where
  queue : b'.outbox.queue = b.outbox.queue ++ b.handed id s
  state : b'.routes.get? id = some (b.settled s)
  others : ∀ {id'}, id' ≠ id → b'.routes.get? id' = b.routes.get? id'

theorem takesIn_publish (b : StatusBoard) (id : RouteId) (s : RouteState) :
    b.TakesIn (publish { b with routes := b.routes.insert id s } id) id s := by
  have hkept : b.TakesIn { b with routes := b.routes.insert id s } id s ∨ b.Hands s := by
    by_cases h : b.Hands s
    · exact .inr h
    · refine .inl ⟨?_, ?_, fun hne => SortedMap.get?_insert_of_ne _ s hne⟩
      · unfold handed
        rw [if_neg h, List.append_nil]
      · unfold settled
        rw [if_neg h, SortedMap.get?_insert_self]
  unfold publish
  simp only [SortedMap.get?_insert_self]
  split
  next hsame => exact hkept.resolve_right fun h => h.1 hsame
  next hother =>
    by_cases ho : b.outbox.Accepts
    · have h : b.Hands s := ⟨hother, ho⟩
      rw [Outbox.push_of_accepts ho]
      refine ⟨?_, ?_, fun hne => ?_⟩
      · unfold handed
        rw [if_pos h]
      · unfold settled
        rw [if_pos h, SortedMap.get?_insert_self]
      · rw [SortedMap.get?_insert_of_ne _ _ hne, SortedMap.get?_insert_of_ne _ _ hne]
    · obtain ⟨o, hpush, hqueue⟩ := Outbox.push_of_not_accepts ho ⟨id, s.render⟩
      have hin := hkept.resolve_right fun h => ho h.2
      rw [hpush]
      exact ⟨hqueue.trans hin.queue, hin.state, hin.others⟩

theorem takesIn_report (h : b.routes.get? id = some s) (now : Timestamp) (r : Report) :
    b.TakesIn (b.report now id r) id (s.apply now r) := by
  unfold report SortedMap.modify
  rw [h]
  exact takesIn_publish b id (s.apply now r)

/-- A report on a route that is not known changes nothing. -/
theorem report_of_unknown (h : b.routes.get? id = none) (now : Timestamp) (r : Report) :
    b.report now id r = b := by
  unfold report SortedMap.modify publish
  rw [h]
  simp only [h]

/-- The state that a route has once it was applied. -/
def adopted (b : StatusBoard) (route : Route) (id : RouteId) : RouteState :=
  let state := match b.routes.get? id, route.status with
    | some state, _ => state
    | none, some status => .ofStatus status
    | none, none => .empty
  { state with source := route.spec.source.text, target := route.spec.target.text }

theorem takesIn_apply {route : Route} (h : route.id? = some id) :
    b.TakesIn (b.apply route) id (b.adopted route id) := by
  unfold apply
  rw [h]
  exact takesIn_publish b id (b.adopted route id)

theorem apply_of_no_id {route : Route} (h : route.id? = none) : b.apply route = b := by
  unfold apply
  rw [h]

theorem get?_patchFailed (b : StatusBoard) (id id' : RouteId) :
    (b.patchFailed id).routes.get? id' =
      if id' = id then (b.routes.get? id).map fun s => { s with published := none }
      else b.routes.get? id' :=
  b.routes.get?_modify id id' _

end StatusBoard

/-! ## Deeds -/

/-- What happens to an update, before it is written. -/
inductive Happening where
  | handedOut (u : Update)
  | failed (id : RouteId)
  deriving DecidableEq, Repr

/-- The route that something happened to. -/
def Happening.id : Happening → RouteId
  | .handedOut u => u.id
  | .failed id => id

structure Desk where
  board : StatusBoard
  /-- The update that there is no answer to yet. -/
  sending : Option Update
  /-- The objects at the control cluster. -/
  stored : RouteId → Json
  /-- What happened to updates, the oldest first. -/
  log : List Happening

inductive Deed where
  | report (now : Timestamp) (id : RouteId) (r : Report)
  | apply (route : Route)
  | delete (id : RouteId)
  /-- Takes the oldest update out of the queue, unless an answer is still due. -/
  | send
  /-- The control cluster merges the patch that was sent. -/
  | written
  /-- The patch that was sent is refused, or no answer to it comes in time. -/
  | failed

namespace Deed

/-- The route that a deed tells the board about, with its state from then on. -/
def subject? (b : StatusBoard) : Deed → Option (RouteId × RouteState)
  | .report now id r => (b.routes.get? id).map fun s => (id, s.apply now r)
  | .apply route => route.id?.map fun id => (id, b.adopted route id)
  | .delete _ | .send | .written | .failed => none

/-- Whether a deed is about sending. -/
def isSending : Deed → Bool
  | .send | .written | .failed => true
  | .report .. | .apply _ | .delete _ => false

end Deed

namespace Desk

variable {d : Desk} {b : StatusBoard} {id : RouteId} {s : RouteState}
  {time : Timestamp → String}

/-- A board that differs by what it was told, and has handed out what is new in its queue. -/
def note (d : Desk) (b : StatusBoard) : Desk :=
  { d with
    board := b
    log := d.log ++ (b.outbox.queue.drop d.board.outbox.queue.length).map .handedOut }

/-- An update is taken out of the queue, which leaves these. -/
def taken (d : Desk) (u : Update) (queue : List Update) : Desk :=
  { d with
    board := { d.board with outbox := { d.board.outbox with queue } }
    sending := some u }

/-- The control cluster has merged the patch that was sent. -/
def merged (time : Timestamp → String) (d : Desk) (u : Update) : Desk :=
  { d with
    sending := none
    stored := Function.update d.stored u.id ((d.stored u.id).mergePatch (u.patch time)) }

/-- The patch that was sent is lost, and the board forgets that it handed the status out. -/
def lost (d : Desk) (u : Update) : Desk :=
  { d with
    board := d.board.patchFailed u.id
    sending := none
    log := d.log ++ [.failed u.id] }

def step (time : Timestamp → String) (d : Desk) : Deed → Desk
  | .report now id r => d.note (d.board.report now id r)
  | .apply route => d.note (d.board.apply route)
  | .delete id => { d with board := d.board.delete id }
  | .send =>
    match d.sending, d.board.outbox.queue with
    | none, u :: queue => d.taken u queue
    | _, _ => d
  | .written => d.sending.elim d (d.merged time)
  | .failed => d.sending.elim d d.lost

def run (time : Timestamp → String) (d : Desk) (deeds : List Deed) : Desk :=
  deeds.foldl (step time) d

@[simp] theorem run_nil (time : Timestamp → String) (d : Desk) : d.run time [] = d := rfl

@[simp] theorem run_cons (time : Timestamp → String) (d : Desk) (deed : Deed) (deeds : List Deed) :
    d.run time (deed :: deeds) = (d.step time deed).run time deeds := rfl

/-- The updates of a route that were handed out and not answered yet, the oldest first. -/
def outstanding (d : Desk) (id : RouteId) : List Update :=
  (d.sending.toList ++ d.board.outbox.queue).filter (·.id = id)

/-- What happened to the updates of a route. -/
def history (d : Desk) (id : RouteId) : List Happening := d.log.filter (·.id = id)

/-- The status that is stored for a route once all its updates are written. -/
def eventually (time : Timestamp → String) (d : Desk) (id : RouteId) : Json :=
  ((d.outstanding id).foldl (fun object u => object.mergePatch (u.patch time)) (d.stored id)).status

theorem eventually_eq (time : Timestamp → String) (d : Desk) (id : RouteId) :
    d.eventually time id = (d.outstanding id).foldl
      (fun status u => status.mergePatch (u.status.toJson time)) (d.stored id).status := by
  unfold eventually
  generalize d.outstanding id = us
  generalize d.stored id = object
  induction us generalizing object with
  | nil => rfl
  | cons u us ih => rw [List.foldl_cons, List.foldl_cons, ih, Update.status_mergePatch]

/-! ## What a deed does -/

@[simp] theorem note_self (d : Desk) : d.note d.board = d := by
  unfold note
  rw [List.drop_length, List.map_nil, List.append_nil]

/-- Everything that a deed can do. -/
inductive Effect (time : Timestamp → String) (d : Desk) : Deed → Desk → Prop
  | told {deed : Deed} {id : RouteId} {s : RouteState} {b : StatusBoard}
    (h : deed.subject? d.board = some (id, s)) (hb : d.board.TakesIn b id s) :
    Effect time d deed (d.note b)
  | nothing {deed : Deed} (h : deed.subject? d.board = none) : Effect time d deed d
  | deleted (id : RouteId) : Effect time d (.delete id) { d with board := d.board.delete id }
  | sent {u : Update} {queue : List Update} (hnone : d.sending = none)
    (hq : d.board.outbox.queue = u :: queue) : Effect time d .send (d.taken u queue)
  | written {u : Update} (hu : d.sending = some u) : Effect time d .written (d.merged time u)
  | failed {u : Update} (hu : d.sending = some u) : Effect time d .failed (d.lost u)

theorem effect_step (time : Timestamp → String) (d : Desk) (deed : Deed) :
    Effect time d deed (d.step time deed) := by
  cases deed with
  | report now id r =>
    change Effect time d _ (d.note (d.board.report now id r))
    cases hs : d.board.routes.get? id with
    | none =>
      rw [StatusBoard.report_of_unknown hs, note_self]
      exact .nothing (Option.map_eq_none_iff.2 hs)
    | some s =>
      exact .told (Option.map_eq_some_iff.2 ⟨s, hs, rfl⟩) (StatusBoard.takesIn_report hs now r)
  | apply route =>
    change Effect time d _ (d.note (d.board.apply route))
    cases hid : route.id? with
    | none =>
      rw [StatusBoard.apply_of_no_id hid, note_self]
      exact .nothing (Option.map_eq_none_iff.2 hid)
    | some id =>
      exact .told (Option.map_eq_some_iff.2 ⟨id, hid, rfl⟩) (StatusBoard.takesIn_apply hid)
  | delete id => exact .deleted id
  | send =>
    simp only [step]
    split
    next hnone hq => exact .sent hnone hq
    · exact .nothing rfl
  | written =>
    simp only [step]
    cases hu : d.sending with
    | none => exact .nothing rfl
    | some u => exact .written hu
  | failed =>
    simp only [step]
    cases hu : d.sending with
    | none => exact .nothing rfl
    | some u => exact .failed hu

/-- Everything that a deed can make of the state of a route, be it known or not. -/
inductive Becomes (d : Desk) (id : RouteId) (deed : Deed) : Option RouteState → Prop
  | told {s : RouteState} (h : deed.subject? d.board = some (id, s)) :
    Becomes d id deed (some (d.board.settled s))
  | kept (h : ∀ s, deed.subject? d.board ≠ some (id, s)) :
    Becomes d id deed (d.board.routes.get? id)
  | deleted (h : deed = .delete id) : Becomes d id deed none
  | lost (h : ∀ s, deed.subject? d.board ≠ some (id, s)) :
    Becomes d id deed ((d.board.routes.get? id).map fun s => { s with published := none })

theorem becomes_step (time : Timestamp → String) (d : Desk) (id : RouteId) (deed : Deed) :
    d.Becomes id deed ((d.step time deed).board.routes.get? id) := by
  have heffect := effect_step time d deed
  generalize d.step time deed = d' at heffect ⊢
  cases heffect with
  | nothing hnone => exact .kept fun s hs => by rw [hnone] at hs; cases hs
  | @told _ id' s' b hs' hb =>
    by_cases hid : id = id'
    · subst hid
      rw [show (d.note b).board.routes.get? id = _ from hb.state]
      exact .told hs'
    · rw [show (d.note b).board.routes.get? id = _ from hb.others hid]
      refine .kept fun s hs => ?_
      rw [hs'] at hs
      cases hs
      exact hid rfl
  | deleted id' =>
    have herased := SortedMap.get?_erase_ite d.board.routes id' id
    change d.Becomes id _ ((d.board.routes.erase id').get? id)
    rw [herased]
    split
    next hid => exact .deleted (by rw [hid])
    · exact .kept nofun
  | sent | written => exact .kept nofun
  | @failed u hu =>
    change d.Becomes id _ ((d.board.patchFailed u.id).routes.get? id)
    rw [StatusBoard.get?_patchFailed]
    split
    next hid =>
      rw [← hid]
      exact .lost nofun
    · exact .kept nofun

/-- Which updates a deed puts into the queue. -/
theorem queue_step (time : Timestamp → String) (d : Desk) {deed : Deed} (h : deed ≠ .send) :
    (d.step time deed).board.outbox.queue = d.board.outbox.queue ++
      match deed.subject? d.board with
      | some (id, s) => d.board.handed id s
      | none => [] := by
  have heffect := effect_step time d deed
  generalize d.step time deed = d' at heffect ⊢
  cases heffect with
  | told hs hb =>
    rw [hs]
    exact hb.queue
  | nothing hs =>
    rw [hs]
    exact (List.append_nil _).symm
  | sent => exact absurd rfl h
  | deleted | written | failed => exact (List.append_nil _).symm

/-! ## What happens to the updates of a route -/

theorem outstanding_note (hb : d.board.TakesIn b id s) (id' : RouteId) :
    (d.note b).outstanding id' =
      d.outstanding id' ++ (d.board.handed id s).filter fun u => u.id = id' := by
  unfold outstanding note
  simp only
  rw [hb.queue, ← List.append_assoc, List.filter_append]

theorem history_note (hb : d.board.TakesIn b id s) (id' : RouteId) :
    (d.note b).history id' =
      d.history id' ++ ((d.board.handed id s).filter fun u => u.id = id').map .handedOut := by
  unfold history note
  simp only
  rw [hb.queue, List.drop_left, List.filter_append, List.filter_map]
  rfl

theorem filter_handed (b : StatusBoard) (id id' : RouteId) (s : RouteState) :
    ((b.handed id s).filter fun u => u.id = id') = if id' = id then b.handed id s else [] := by
  unfold StatusBoard.handed
  by_cases hid : id' = id
  · rw [if_pos hid]
    split
    · exact List.filter_eq_self.2 fun u hu => by rw [List.mem_singleton.1 hu]; simp [hid]
    · rfl
  · rw [if_neg hid]
    split
    · exact List.filter_eq_nil_iff.2 fun u hu => by
        rw [List.mem_singleton.1 hu]
        simpa using Ne.symm hid
    · rfl

theorem outstanding_of_sending {u : Update} (hu : d.sending = some u) (id : RouteId) :
    d.outstanding id =
      (if u.id = id then [u] else []) ++ d.board.outbox.queue.filter fun v => v.id = id := by
  unfold outstanding
  rw [hu, List.filter_append]
  split
  next hid => rw [Option.toList_some, List.filter_cons_of_pos (by simpa using hid), List.filter_nil]
  next hid => rw [Option.toList_some, List.filter_cons_of_neg (by simpa using hid), List.filter_nil]

theorem history_lost (d : Desk) (u : Update) (id : RouteId) :
    (d.lost u).history id = d.history id ++ if u.id = id then [.failed id] else [] := by
  unfold history lost
  rw [List.filter_append]
  split
  next hid =>
    subst hid
    rw [List.filter_cons_of_pos (by simp [Happening.id]), List.filter_nil]
  next hid => rw [List.filter_cons_of_neg (by simp [Happening.id, hid]), List.filter_nil]

/-! ## What a patcher does -/

/-- The desk `d'` comes of `d` by sending alone. -/
def Sends (time : Timestamp → String) (d d' : Desk) : Prop :=
  ∃ deeds, (∀ deed ∈ deeds, deed.isSending = true) ∧ d.run time deeds = d'

theorem Sends.refl (time : Timestamp → String) (d : Desk) : Sends time d d :=
  ⟨[], fun _ h => absurd h List.not_mem_nil, rfl⟩

theorem Sends.cons {deed : Deed} {d' : Desk} (h : deed.isSending = true)
    (hs : Sends time (d.step time deed) d') : Sends time d d' := by
  obtain ⟨deeds, hall, hrun⟩ := hs
  exact ⟨deed :: deeds, List.forall_mem_cons.2 ⟨h, hall⟩, hrun⟩

/-- The desk has a patcher's board, and waits for the same answer. -/
structure Follows (d : Desk) (o : Patcher.Outcome) : Prop where
  board : d.board = o.board
  sending : d.sending = o.patcher.waiting.map (·.1)

theorem sends_drain (time : Timestamp → String) {p : Patcher} (hp : p.waiting = none)
    {b : StatusBoard} (left : Nat) {queue : List Update} {d : Desk}
    (hboard : d.board = { b with outbox := { b.outbox with queue } })
    (hsending : d.sending = none) :
    ∃ d', Sends time d d' ∧ d'.Follows (p.drain b left queue) := by
  induction queue generalizing p b left d with
  | nil => exact ⟨d, .refl time d, hboard, by rw [hsending, Patcher.drain, hp]; rfl⟩
  | cons u queue ih =>
    -- whatever the answer, the update is taken out first
    have hsent : d.step time .send =
        { d with
          board := { b with outbox := { b.outbox with queue } }
          sending := some u } := by
      unfold step taken
      rw [hsending, hboard]
    have hfailed {q : Patcher} (left' : Nat) (hq : q.waiting = none) :
        ∃ d', Sends time d d' ∧ d'.Follows (q.drain (b.patchFailed u.id) left' queue) := by
      obtain ⟨d', hd', hf⟩ := ih hq (b := b.patchFailed u.id) left'
        (d := (d.step time .send).step time .failed) (by rw [hsent]; rfl) (by rw [hsent]; rfl)
      exact ⟨d', .cons rfl (.cons rfl hd'), hf⟩
    rw [Patcher.drain]
    split
    · exact hfailed left hp
    split
    · exact hfailed left rfl
    simp only
    cases (p.nextReply).1 with
    | written =>
      obtain ⟨d', hd', hf⟩ := ih (p := { p.nextReply.2 with written := p.nextReply.2.written + 1 })
        hp (b := b) left (d := (d.step time .send).step time .written) (by rw [hsent]; rfl)
        (by rw [hsent]; rfl)
      exact ⟨d', .cons rfl (.cons rfl hd'), hf.board, hf.sending⟩
    | refused =>
      obtain ⟨d', hd', hf⟩ :=
        hfailed (q := { p.nextReply.2 with refused := p.nextReply.2.refused + 1 }) left hp
      exact ⟨d', hd', hf.board, hf.sending⟩
    | silence =>
      simp only
      split
      · obtain ⟨d', hd', hf⟩ := hfailed (q := p.nextReply.2.giveUp) (left - p.timeout) rfl
        exact ⟨d', hd', hf.board, hf.sending⟩
      · exact ⟨_, .cons rfl (.refl time _), by rw [hsent], by rw [hsent]; rfl⟩

/-- Whatever the control cluster answers, what a patcher does while time passes is sending. -/
theorem run_patcher (time : Timestamp → String) (p : Patcher) (ms : Nat) {d : Desk}
    (h : d.sending = p.waiting.map (·.1)) :
    ∃ d', Sends time d d' ∧ d'.Follows (p.run d.board ms) := by
  unfold Patcher.run
  split
  next hnone => exact sends_drain time hnone ms rfl (by rw [h, hnone]; rfl)
  next u due hsome =>
    have hu : d.sending = some u := by rw [h, hsome]; rfl
    split
    · have hlost : d.step time .failed = d.lost u := by
        simp only [step]
        rw [hu]
        rfl
      obtain ⟨d', hd', hf⟩ := sends_drain time (p := p.giveUp) rfl (b := d.board.patchFailed u.id)
        (ms - due) (d := d.step time .failed) (by rw [hlost]; rfl) (by rw [hlost]; rfl)
      exact ⟨d', .cons rfl hd', hf⟩
    · exact ⟨d, .refl time d, rfl, hu⟩

end Desk

end HubFederation
