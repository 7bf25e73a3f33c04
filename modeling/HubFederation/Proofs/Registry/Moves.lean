import HubFederation.Registry.Initializer

/-!
# Runs of the registry

The registry and its initializer go through moves, in whatever order they come: what the
control cluster tells, what hubs answer, the steps of the initializer with the inits that it
works on, and what informers say. An init may succeed or fail at any time, and an informer may
still speak when its hub has been reset, so both come with a generation that need not be
current any more.

* `turn_applyHub` and its siblings: a hub is left alone, reset under a new generation, or
  forgotten.
* `effect_step`: everything that a move can do.
-/
namespace HubFederation

namespace HubState

/-- Nothing has come of a client. -/
structure Blank (h : HubState) : Prop where
  client : h.client = none
  services : h.services = ∅
  relisting : h.relisting = none

/-- What there is to know about the client of a hub is the same. -/
structure Alike (h h' : HubState) : Prop where
  declared : h'.spec.isSome = h.spec.isSome
  kubeconfig : h'.kubeconfig = h.kubeconfig
  generation : h'.generation = h.generation
  client : h'.client = h.client

/-- And so is what came of it. -/
structure Like (h h' : HubState) : Prop extends Alike h h' where
  services : h'.services = h.services
  relisting : h'.relisting = h.relisting

theorem Like.refl (h : HubState) : Like h h := ⟨⟨rfl, rfl, rfl, rfl⟩, rfl, rfl⟩

theorem alike_onService (h : HubState) (e : ServiceEvent) : Alike h (h.onService e) := by
  cases e <;> exact ⟨rfl, rfl, rfl, rfl⟩

theorem blank_reset (h : HubState) (generation : Nat) : (h.reset generation).Blank := ⟨rfl, rfl, rfl⟩

/-- The init that asks for a client, if the hub can be reached. -/
def init? (h : HubState) (name : String) (generation : Nat) : Option Init :=
  match h.spec, h.kubeconfig with
  | some _, some kubeconfig => some ⟨name, generation, kubeconfig⟩
  | _, _ => none

end HubState

namespace Registry

variable {r r' : Registry} {name : String} {h h' : HubState}

theorem hub_eq_of_get? {h : Option HubState} (hget : r.hubs.get? name = h) :
    r.hub name = h.getD .empty := by
  unfold hub SortedMap.getD
  rw [hget]

theorem hub_of_known (hget : r.hubs.get? name = some h) : r.hub name = h := hub_eq_of_get? hget

theorem hub_of_unknown (hget : r.hubs.get? name = none) : r.hub name = .empty := hub_eq_of_get? hget

theorem get?_setHub (r : Registry) (name : String) (h : HubState) (n : String) :
    (r.setHub name h).hubs.get? n = if n = name then some h else r.hubs.get? n := by
  unfold setHub
  by_cases hn : n = name
  · rw [if_pos hn, hn, SortedMap.get?_insert_self]
  · rw [if_neg hn, SortedMap.get?_insert_of_ne _ _ hn]

/-- A hub that is known is reset under a generation that was never used before. -/
theorem reinit_eq (hget : r.hubs.get? name = some h) :
    r.reinit name =
      { r.setHub name (h.reset (r.generations + 1)) with
        generations := r.generations + 1
        inits := r.inits ++ (h.init? name (r.generations + 1)).toList } := by
  unfold reinit HubState.init?
  simp only [hget]
  cases h.spec with
  | none => simp [setHub]
  | some _ => cases h.kubeconfig <;> simp [setHub]

/-! ## What becomes of a hub -/

/-- At most one hub is reset, under a new generation; nothing else that has to do with clients
changes. -/
inductive Turn (r r' : Registry) : Prop
  | kept (hubs : ∀ n, Option.Rel HubState.Like (r.hubs.get? n) (r'.hubs.get? n))
    (generations : r'.generations = r.generations) (inits : r'.inits = r.inits)
  | renewed (name : String) (h : HubState)
    (hubs : ∀ n, r'.hubs.get? n =
      if n = name then some (h.reset (r.generations + 1)) else r.hubs.get? n)
    (generations : r'.generations = r.generations + 1)
    (inits : r'.inits = r.inits ++ (h.init? name (r.generations + 1)).toList)

/-- Nothing is left of a hub but credentials. -/
structure Forgets (name : String) (r r' : Registry) : Prop where
  left : ∀ h, r'.hubs.get? name = some h → h.spec = none ∧ h.generation = 0 ∧ h.Blank
  others : ∀ n, n ≠ name → r'.hubs.get? n = r.hubs.get? n
  generations : r'.generations = r.generations
  inits : r'.inits = r.inits

theorem Turn.of_hubs (hubs : r'.hubs = r.hubs) (generations : r'.generations = r.generations)
    (inits : r'.inits = r.inits) : Turn r r' := by
  refine .kept (fun n => ?_) generations inits
  rw [hubs]
  cases r.hubs.get? n with
  | none => exact .none
  | some h => exact .some (.refl h)

theorem Turn.refl (r : Registry) : Turn r r := .of_hubs rfl rfl rfl

theorem Turn.notify (ht : Turn r r') : Turn r r'.notify := by
  cases ht with
  | kept hubs generations inits => exact .kept hubs generations inits
  | renewed name h hubs generations inits => exact .renewed name h hubs generations inits

theorem Turn.notifyServices (ht : Turn r r') (hub : String) : Turn r (r'.notifyServices hub) := by
  cases ht with
  | kept hubs generations inits => exact .kept hubs generations inits
  | renewed name h hubs generations inits => exact .renewed name h hubs generations inits

/-- A known hub gets a state that is like the one it had. -/
theorem turn_setHub (hget : r.hubs.get? name = some h) (hlike : h.Like h') :
    Turn r (r.setHub name h') := by
  refine .kept (fun n => ?_) rfl rfl
  rw [get?_setHub]
  split
  next hn =>
    rw [hn, hget]
    exact .some hlike
  · cases r.hubs.get? n with
    | none => exact .none
    | some h => exact .some (.refl h)

/-- A hub is reset, whatever it was before. -/
theorem turn_renew (r : Registry) (name : String) (h : HubState) :
    Turn r ((r.setHub name h).reinit name) := by
  have hget : (r.setHub name h).hubs.get? name = some h := by rw [get?_setHub, if_pos rfl]
  rw [reinit_eq hget]
  refine .renewed name h (fun n => ?_) rfl rfl
  change ((r.setHub name h).setHub name _).hubs.get? n = _
  rw [get?_setHub, get?_setHub]
  split
  · rfl
  · rfl

theorem turn_reinit (hget : r.hubs.get? name = some h) : Turn r (r.reinit name) := by
  rw [reinit_eq hget]
  exact .renewed name h (get?_setHub r name _) rfl rfl

/-! ## What the control cluster tells -/

theorem turn_applyHub (r : Registry) (name : String) (spec : HubSpec) :
    Turn r (r.applyHub name spec) := by
  unfold applyHub
  simp only
  split
  · exact .refl r
  · split
    · exact (turn_renew r name _).notify
    next hdeclared =>
      -- A hub that declared something before is known.
      cases hget : r.hubs.get? name with
      | none =>
        rw [hub_of_unknown hget] at hdeclared
        exact absurd rfl hdeclared
      | some h =>
        rw [hub_of_known hget] at hdeclared ⊢
        refine Turn.notify (turn_setHub hget ⟨⟨?_, rfl, rfl, rfl⟩, rfl, rfl⟩)
        cases hspec : h.spec with
        | none =>
          rw [hspec] at hdeclared
          exact absurd rfl hdeclared
        | some _ => rfl

theorem turn_applySecret (r : Registry) (name : String) (data : SortedMap String ByteArray) :
    Turn r (r.applySecret name data) := by
  unfold applySecret
  split
  · exact .refl r
  · simp only
    split
    next hsame =>
      split
      · exact .refl r
      · cases hget : r.hubs.get? name with
        | none =>
          rw [hub_of_unknown hget] at hsame
          cases hsame
        | some h =>
          rw [hub_of_known hget]
          exact Turn.notify (turn_setHub hget ⟨⟨rfl, rfl, rfl, rfl⟩, rfl, rfl⟩)
    · exact (turn_renew r name _).notify

theorem turn_deleteSecret (r : Registry) (name : String) : Turn r (r.deleteSecret name) := by
  unfold deleteSecret
  split
  · exact .refl r
  · exact ((turn_renew r name _).notifyServices name).notify

/-- A hub that is deleted and was known keeps nothing but its credentials. -/
theorem forgets_deleteHub (r : Registry) (name : String) : Forgets name r (r.deleteHub name) := by
  unfold deleteHub
  split
  next hget =>
    refine ⟨fun h hh => ?_, fun _ _ => rfl, rfl, rfl⟩
    rw [hget] at hh
    cases hh
  next h hget =>
    refine ⟨fun h' hh => ?_, fun n hn => ?_, rfl, rfl⟩
    · simp only [notify, notifyServices] at hh
      split at hh
      · rw [SortedMap.get?_insert_self] at hh
        cases hh
        exact ⟨rfl, rfl, rfl, rfl, rfl⟩
      · rw [SortedMap.get?_erase_self] at hh
        cases hh
    · simp only [notify, notifyServices]
      split
      · exact SortedMap.get?_insert_of_ne _ _ hn
      · exact SortedMap.get?_erase_of_ne _ hn

/-- A hub is reset when it rejects its credentials, and by no other answer. -/
theorem turn_call (r : Registry) (name : String) (call : ConfigMapCall) (status : Nat) :
    Turn r (r.call name call status).registry := by
  unfold Registry.call
  split
  · exact .refl r
  next hclient =>
    split
    · exact .refl r
    · split
      · exact .refl r
      · simp only
        split
        · cases hget : r.hubs.get? name with
          | none =>
            rw [hub_of_unknown hget] at hclient
            exact absurd rfl hclient
          | some h => exact (turn_reinit hget).notify
        · exact .refl r

end Registry

namespace HubControl

/-! ## Moves -/

inductive Move where
  | applyHub (name : String) (spec : HubSpec)
  | deleteHub (name : String)
  | applySecret (name : String) (data : SortedMap String ByteArray)
  | deleteSecret (name : String)
  /-- A hub answers a call. Status 401 rejects the credentials. -/
  | answer (name : String) (call : ConfigMapCall) (status : Nat)
  /-- Bind ports are given out, given back or loaded. -/
  | bind (ports : PortPools)
  /-- An init that was queued is looked at. -/
  | take (init : Init)
  | succeed (init : Init) (found : Recovery.Bindings)
  | fail (init : Init)
  | retry (init : Init)
  /-- The informer that came with a generation tells of a service. -/
  | inform (name : String) (generation : Nat) (e : ServiceEvent)

/-- Inits that were sent and have not come to an end: they are queued, connecting or backing
off. -/
def outstanding (c : HubControl) : List Init :=
  c.registry.inits ++ c.connecting ++ c.backingOff

/-- Takes an init out of the queue, wherever it stands there. -/
def pick (c : HubControl) (init : Init) : HubControl :=
  (c.mapRegistry fun r => { r with inits := r.inits.erase init }).begin init

def step (c : HubControl) : Move → HubControl
  | .applyHub name spec => c.mapRegistry (·.applyHub name spec)
  | .deleteHub name => c.mapRegistry (·.deleteHub name)
  | .applySecret name data => c.mapRegistry (·.applySecret name data)
  | .deleteSecret name => c.mapRegistry (·.deleteSecret name)
  | .answer name call status => c.mapRegistry fun r => (r.call name call status).registry
  | .bind ports => c.mapRegistry ({ · with ports })
  | .take init => if init ∈ c.registry.inits then c.pick init else c
  | .succeed init found => if init ∈ c.connecting then c.succeed init found else c
  | .fail init => if init ∈ c.connecting then c.fail init else c
  | .retry init => if init ∈ c.backingOff then c.retry init else c
  | .inform name generation e =>
    c.mapRegistry fun r => (r.serviceEvent? name generation e).getD r

def run (c : HubControl) (ms : List Move) : HubControl := ms.foldl step c

@[simp] theorem run_nil (c : HubControl) : c.run [] = c := rfl

@[simp] theorem run_cons (c : HubControl) (m : Move) (ms : List Move) :
    c.run (m :: ms) = (c.step m).run ms := rfl

theorem run_append (c : HubControl) (ms ms' : List Move) :
    c.run (ms ++ ms') = (c.run ms).run ms' :=
  List.foldl_append

theorem run_concat (c : HubControl) (ms : List Move) (m : Move) :
    c.run (ms ++ [m]) = (c.run ms).step m :=
  c.run_append ms [m]

/-- Taking the oldest init is a move. -/
theorem take_moves (c : HubControl) : ∃ ms, c.take = c.run ms := by
  unfold take
  cases hinits : c.registry.inits with
  | nil => exact ⟨[], rfl⟩
  | cons init rest =>
    refine ⟨[.take init], ?_⟩
    rw [run_cons, run_nil, step, if_pos (by rw [hinits]; exact List.mem_cons_self ..)]
    unfold pick mapRegistry
    simp only [hinits, List.erase_cons_head]

/-! ## Everything that a move can do -/

inductive Effect (c : HubControl) : Move → HubControl → Prop
  | turned {m : Move} {r : Registry} (turn : c.registry.Turn r) : Effect c m { c with registry := r }
  | forgotten {name : String} {r : Registry} (forgets : c.registry.Forgets name r) :
    Effect c (.deleteHub name) { c with registry := r }
  /-- An init goes on its way. -/
  | passed {m : Move} {c' : HubControl} (hubs : c'.registry.hubs = c.registry.hubs)
    (generations : c'.registry.generations = c.registry.generations)
    (perm : c'.outstanding.Perm c.outstanding) : Effect c m c'
  /-- An init that is out of date comes to an end. -/
  | dropped {m : Move} {c' : HubControl} {init : Init}
    (hubs : c'.registry.hubs = c.registry.hubs)
    (generations : c'.registry.generations = c.registry.generations)
    (perm : c.outstanding.Perm (init :: c'.outstanding)) (stale : c.isCurrent init = false) :
    Effect c m c'
  | built {init : Init} {found : Recovery.Bindings} {c' : HubControl} (mem : init ∈ c.connecting)
    (current : c.isCurrent init = true) (registry : c'.registry = c.registry.install init found)
    (perm : c.outstanding.Perm (init :: c'.outstanding)) : Effect c (.succeed init found) c'
  | heard {name : String} {h : HubState} {e : ServiceEvent} {c' : HubControl}
    (known : c.registry.hubs.get? name = some h)
    (hubs : c'.registry.hubs = c.registry.hubs.insert name (h.onService e))
    (generations : c'.registry.generations = c.registry.generations)
    (outstanding : c'.outstanding = c.outstanding) : Effect c (.inform name h.generation e) c'

variable {c : HubControl} {init : Init}

theorem effect_take (h : init ∈ c.registry.inits) : Effect c (.take init) (c.pick init) := by
  unfold pick begin
  split
  · refine .passed rfl rfl ?_
    unfold outstanding mapRegistry
    simp only [List.append_assoc]
    -- What is taken out of the queue comes right behind those that are connecting.
    refine .trans ?_ ((List.perm_cons_erase h).symm.append_right (c.connecting ++ c.backingOff))
    refine .trans ?_ List.perm_middle
    refine .append_left _ ?_
    exact List.perm_middle
  next hstale =>
    refine .dropped rfl rfl ?_ (Bool.not_eq_true _ ▸ hstale)
    unfold outstanding mapRegistry
    simp only [List.append_assoc]
    exact (List.perm_cons_erase h).append_right _

/-- A client that was built is taken in if its init is current, and dropped otherwise. -/
theorem effect_succeed (h : init ∈ c.connecting) (found : Recovery.Bindings) :
    Effect c (.succeed init found) (c.succeed init found) := by
  have hperm : c.outstanding.Perm
      (init :: (c.registry.inits ++ c.connecting.erase init ++ c.backingOff)) := by
    unfold outstanding
    refine .trans ?_ (List.perm_middle.append_right c.backingOff)
    exact ((List.perm_cons_erase h).append_left c.registry.inits).append_right c.backingOff
  unfold succeed
  simp only
  split
  next hcurrent => exact .built h hcurrent rfl hperm
  next hstale => exact .dropped rfl rfl hperm (Bool.not_eq_true _ ▸ hstale)

theorem effect_fail (h : init ∈ c.connecting) : Effect c (.fail init) (c.fail init) := by
  refine .passed rfl rfl ?_
  unfold outstanding fail
  simp only [List.append_assoc]
  refine .append_left c.registry.inits ?_
  refine .trans ?_ ((List.perm_cons_erase h).symm.append_right c.backingOff)
  exact (List.perm_append_comm.append_left _).trans List.perm_middle

theorem effect_retry (h : init ∈ c.backingOff) : Effect c (.retry init) (c.retry init) := by
  have hperm : c.outstanding.Perm
      (init :: (c.registry.inits ++ c.connecting ++ c.backingOff.erase init)) :=
    ((List.perm_cons_erase h).append_left _).trans List.perm_middle
  unfold retry
  simp only
  split
  · refine .passed rfl rfl (.trans ?_ hperm.symm)
    unfold outstanding mapRegistry
    simp only [List.append_assoc]
    exact List.perm_middle
  next hstale => exact .dropped rfl rfl hperm (Bool.not_eq_true _ ▸ hstale)

/-- An informer is heard if its generation is current. -/
theorem effect_inform (c : HubControl) (name : String) (generation : Nat) (e : ServiceEvent) :
    Effect c (.inform name generation e) (c.step (.inform name generation e)) := by
  simp only [step, mapRegistry, Registry.serviceEvent?]
  cases hget : c.registry.hubs.get? name with
  | none => exact .passed rfl rfl (.refl _)
  | some h =>
    simp only
    split
    · exact .passed rfl rfl (.refl _)
    next hgeneration =>
      obtain rfl := Decidable.not_not.1 hgeneration
      cases e <;> exact .heard hget rfl rfl rfl

theorem effect_step (c : HubControl) (m : Move) : Effect c m (c.step m) := by
  cases m with
  | applyHub name spec => exact .turned (Registry.turn_applyHub ..)
  | deleteHub name => exact .forgotten (Registry.forgets_deleteHub ..)
  | applySecret name data => exact .turned (Registry.turn_applySecret ..)
  | deleteSecret name => exact .turned (Registry.turn_deleteSecret ..)
  | answer name call status => exact .turned (Registry.turn_call ..)
  | bind ports => exact .turned (.of_hubs rfl rfl rfl)
  | take init =>
    simp only [step]
    split
    next h => exact effect_take h
    · exact .passed rfl rfl (.refl _)
  | succeed init found =>
    simp only [step]
    split
    next h => exact effect_succeed h found
    · exact .passed rfl rfl (.refl _)
  | fail init =>
    simp only [step]
    split
    next h => exact effect_fail h
    · exact .passed rfl rfl (.refl _)
  | retry init =>
    simp only [step]
    split
    next h => exact effect_retry h
    · exact .passed rfl rfl (.refl _)
  | inform name generation e => exact effect_inform c name generation e

end HubControl

end HubFederation
