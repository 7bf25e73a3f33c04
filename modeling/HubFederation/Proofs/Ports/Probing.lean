import Mathlib.Data.List.Iterate
import HubFederation.Proofs.Ports.Restored

/-!
# Where a search ends

A search goes round the ports that a pool hands out, from the cursor to the last one and on from the
first one. It looks at as many ports as there are, so that it sees each of them once, wherever
registering and giving back have left the cursor. Ports outside the range may be bound and are never
looked at.

* `getElem?_circle`: the search meets a port after as many others as lie between it and the cursor.
* `firstFree_eq_some_iff`, `firstFree_eq_none_iff`: which port is found, and when none is.
* `get_takes_next_free`: what comes of asking for a port, after every history of a pool.
-/
namespace HubFederation.PortPool

variable {p q : PortPool} {peer : ExportedPort} {port : Port}

/-- How many ports lie between the cursor and `port`, going round. -/
def ahead (p : PortPool) (port : Port) : Nat :=
  if p.cursor ≤ port then port.toNat - p.cursor.toNat
  else p.stop.toNat - p.cursor.toNat + (port.toNat - p.start.toNat)

/-- Every port that the pool hands out is bound. -/
def Full (p : PortPool) : Prop := ∀ port, p.holds port = true → p.peerOf? port ≠ none

/-- The first port, going round from the cursor, that is not bound. -/
structure NextFree (p : PortPool) (port : Port) : Prop where
  holds : p.holds port = true
  free : p.peerOf? port = none
  first : ∀ port', p.holds port' = true → p.ahead port' < p.ahead port → p.peerOf? port' ≠ none

/-- What `p` becomes when `port` is bound to `peer` and the cursor moves behind it. -/
structure HandsOut (p : PortPool) (peer : ExportedPort) (port : Port) (q : PortPool) : Prop where
  ports : ∀ peer', q.portOf? peer' = if peer' = peer then some port else p.portOf? peer'
  peers : ∀ port', q.peerOf? port' = if port' = port then some peer else p.peerOf? port'
  range : p.SameRange q
  cursor : q.cursor.toNat =
    if port.toNat + 1 < p.stop.toNat then port.toNat + 1 else p.start.toNat

/-! ## Going round -/

theorem capacity_pos (h : p.holds port = true) : 0 < p.capacity := by
  rw [holds_iff] at h
  unfold capacity
  omega

theorem Sound.holds_cursor (h : p.Sound) (hsome : 0 < p.capacity) : p.holds p.cursor = true := by
  refine h.cursor (UInt16.lt_iff_toNat_lt.2 ?_)
  unfold capacity at hsome
  omega

/-- The ports in the order in which a search looks at them. -/
def circle (p : PortPool) : List Port := List.iterate p.next p.cursor p.capacity

theorem holds_iterate_next (h : p.holds port = true) (i : Nat) :
    p.holds (p.next^[i] port) = true := by
  induction i with
  | zero => exact h
  | succ i ih =>
    rw [Function.iterate_succ_apply']
    exact holds_next ih

/-- A search goes up to the last port, and on from the first one. -/
theorem toNat_iterate_next (hc : p.holds p.cursor = true) {i : Nat} (hi : i < p.capacity) :
    (p.next^[i] p.cursor).toNat =
      if p.cursor.toNat + i < p.stop.toNat then p.cursor.toNat + i
      else p.start.toNat + (p.cursor.toNat + i - p.stop.toNat) := by
  have hcursor := holds_iff.1 hc
  induction i with
  | zero => exact (if_pos hcursor.2).symm
  | succ i ih =>
    rw [Function.iterate_succ_apply', toNat_next (holds_iterate_next hc i),
      ih (Nat.lt_of_succ_lt hi)]
    unfold capacity at hi
    by_cases hup : p.cursor.toNat + i < p.stop.toNat
    · rw [if_pos hup]
      split <;> split <;> omega
    · -- The first port has been passed, and the cursor is not reached again.
      rw [if_neg hup, if_pos (by omega), if_neg (by omega)]
      omega

theorem ahead_lt (hc : p.holds p.cursor = true) (h : p.holds port = true) :
    p.ahead port < p.capacity := by
  rw [holds_iff] at hc h
  simp only [ahead, capacity, UInt16.le_iff_toNat_le]
  split <;> omega

theorem ahead_iterate_next (hc : p.holds p.cursor = true) {i : Nat} (hi : i < p.capacity) :
    p.ahead (p.next^[i] p.cursor) = i := by
  simp only [ahead, UInt16.le_iff_toNat_le, toNat_iterate_next hc hi]
  rw [holds_iff] at hc
  unfold capacity at hi
  split <;> split <;> omega

theorem iterate_next_ahead (hc : p.holds p.cursor = true) (h : p.holds port = true) :
    p.next^[p.ahead port] p.cursor = port := by
  refine UInt16.toNat_inj.1 ?_
  rw [toNat_iterate_next hc (ahead_lt hc h)]
  rw [holds_iff] at hc h
  simp only [ahead, UInt16.le_iff_toNat_le]
  split <;> split <;> omega

/-- A search meets a port after as many others as lie between it and the cursor, and it meets none
that is not handed out. -/
theorem getElem?_circle (hp : p.Sound) {i : Nat} :
    p.circle[i]? = some port ↔ p.holds port = true ∧ p.ahead port = i := by
  rw [List.getElem?_eq_some_iff]
  unfold circle
  simp only [List.getElem_iterate, List.length_iterate]
  constructor
  · rintro ⟨hi, rfl⟩
    have hc := hp.holds_cursor (Nat.zero_lt_of_lt hi)
    exact ⟨holds_iterate_next hc i, ahead_iterate_next hc hi⟩
  · rintro ⟨hheld, rfl⟩
    have hc := hp.holds_cursor (capacity_pos hheld)
    exact ⟨ahead_lt hc hheld, iterate_next_ahead hc hheld⟩

theorem mem_circle (hp : p.Sound) : port ∈ p.circle ↔ p.holds port = true := by
  rw [List.mem_iff_getElem?]
  simp only [getElem?_circle hp]
  exact ⟨fun ⟨_, h, _⟩ => h, fun h => ⟨_, h, rfl⟩⟩

/-! ## Searching -/

theorem firstFree_eq_find? (p : PortPool) (n : Nat) (port : Port) :
    p.firstFree n port = (List.iterate p.next port n).find? fun seen => (p.peerOf? seen).isNone := by
  induction n generalizing port with
  | zero => rfl
  | succ n ih =>
    rw [firstFree, List.iterate, List.find?_cons]
    cases (p.peerOf? port).isNone with
    | true => rfl
    | false => exact ih (p.next port)

/-- A search from the cursor looks at every port that is handed out. -/
theorem firstFree_cursor (p : PortPool) :
    p.firstFree p.capacity p.cursor = p.circle.find? fun seen => (p.peerOf? seen).isNone :=
  firstFree_eq_find? ..

theorem firstFree_eq_none_iff (hp : p.Sound) :
    p.firstFree p.capacity p.cursor = none ↔ p.Full := by
  rw [firstFree_cursor, List.find?_eq_none]
  simp only [mem_circle hp, Option.isNone_iff_eq_none]
  rfl

theorem firstFree_eq_some_iff (hp : p.Sound) :
    p.firstFree p.capacity p.cursor = some port ↔ p.NextFree port := by
  rw [firstFree_cursor, List.find?_eq_some_iff_getElem]
  simp only [Option.not_isNone, Option.isSome_iff_ne_none, Option.isNone_iff_eq_none]
  constructor
  · rintro ⟨hfree, i, hi, hport, hbound⟩
    obtain ⟨hheld, rfl⟩ := (getElem?_circle hp).1 (List.getElem?_eq_some_iff.2 ⟨hi, hport⟩)
    refine ⟨hheld, hfree, fun port' hheld' hless => ?_⟩
    obtain ⟨_, hport'⟩ := List.getElem?_eq_some_iff.1 ((getElem?_circle hp).2 ⟨hheld', rfl⟩)
    exact hport' ▸ hbound _ hless
  · rintro ⟨hheld, hfree, hbound⟩
    obtain ⟨hi, hport⟩ := List.getElem?_eq_some_iff.1 ((getElem?_circle hp).2 ⟨hheld, rfl⟩)
    refine ⟨hfree, _, hi, hport, fun j hj => ?_⟩
    obtain ⟨hheld', hahead⟩ :=
      (getElem?_circle hp).1 (List.getElem?_eq_getElem (Nat.lt_trans hj hi))
    exact hbound _ hheld' (lt_of_eq_of_lt hahead hj)

/-! ## Asking for a port -/

theorem get_eq_error_iff (hnew : p.portOf? peer = none) {e : PortError} :
    p.get peer = .error e ↔
      e = .exhausted p.start p.stop ∧ p.firstFree p.capacity p.cursor = none := by
  unfold get
  rw [hnew]
  cases p.firstFree p.capacity p.cursor <;> simp [eq_comm]

theorem exists_get_eq_ok_iff (hnew : p.portOf? peer = none) :
    (∃ q, p.get peer = .ok (port, q)) ↔ p.firstFree p.capacity p.cursor = some port := by
  unfold get
  rw [hnew]
  cases p.firstFree p.capacity p.cursor <;> simp

theorem handsOut_of_get (hp : p.Sound) (hnew : p.portOf? peer = none)
    (h : p.get peer = .ok (port, q)) : p.HandsOut peer port q := by
  have hfree := (firstFree_eq_some_iff hp).1 ((exists_get_eq_ok_iff hnew).1 ⟨q, h⟩)
  refine ⟨portOf?_get h, ?_, sameRange_get h, ?_⟩
  all_goals
    rcases get_cases h with ⟨hport, -⟩ | ⟨-, -, rfl⟩
    · rw [hnew] at hport
      cases hport
  · intro port'
    refine (p.peerOf?_rebind peer port port').trans ?_
    rw [hnew, if_neg (nofun : ¬(none : Option Port) = some port')]
  · exact toNat_next hfree.holds

/-- Whatever was done to a pool, a peer that has a port is handed that one, and nothing changes. A
peer without one is refused if and only if every port that the pool hands out is bound, and nothing
changes either, by the type of `get`, which returns no pool with an error. Otherwise it is handed
the first port that is not bound, going round from the cursor, which then stands behind it. -/
theorem get_takes_next_free (start count : Port) (ms : List Move) (peer : ExportedPort) :
    let p := (ofCount start count).run ms
    (p.start = start ∧ p.stop.toNat = min 65535 (start.toNat + count.toNat)) ∧
    (∀ port, p.portOf? peer = some port → p.get peer = .ok (port, p)) ∧
    (p.portOf? peer = none →
      (∀ e, p.get peer = .error e ↔ e = .exhausted p.start p.stop ∧ p.Full) ∧
      (∀ e, p.get peer = .error e → p.step (.get peer) = p) ∧
      (∀ port, (∃ q, p.get peer = .ok (port, q)) ↔ p.NextFree port) ∧
      ∀ port q, p.get peer = .ok (port, q) → p.HandsOut peer port q) := by
  intro p
  have hp : p.Sound := sound_run (sound_ofCount start count) ms
  obtain ⟨hstart, hstop⟩ := sameRange_run (ofCount start count) ms
  refine ⟨⟨hstart, ?_⟩, fun port => get_of_portOf?, fun hnew => ⟨fun e => ?_, fun e he => ?_,
    fun port => ?_, fun port q => handsOut_of_get hp hnew⟩⟩
  · rw [hstop]
    exact UInt16.toNat_ofNat_of_lt' (Nat.lt_succ_of_le (Nat.min_le_left ..))
  · rw [get_eq_error_iff hnew, firstFree_eq_none_iff hp]
  · rw [step, he]
  · rw [exists_get_eq_ok_iff hnew, firstFree_eq_some_iff hp]

/-- A pool that went round and then gave its first port back. The cursor has passed that port. -/
def turned : List Move := roundabout ++ [.release (webPort 5)]

/-- While all three ports are bound a new peer is refused, although one of the peers has a port from
elsewhere. When the first port is given back, the search passes the last one to get there. -/
theorem get_takes_next_free_turned :
    let full := (ofCount 100 3).run roundabout
    let p := (ofCount 100 3).run turned
    (full.get (webPort 6) = .error (.exhausted 100 103) ∧ full.Full) ∧
    p.cursor = 101 ∧ p.NextFree 100 ∧
      ∃ q, p.get (webPort 6) = .ok (100, q) ∧ p.HandsOut (webPort 6) 100 q := by
  obtain ⟨-, -, hfull⟩ := get_takes_next_free 100 3 roundabout (webPort 6)
  obtain ⟨-, -, hturned⟩ := get_takes_next_free 100 3 turned (webPort 6)
  obtain ⟨hrefused, -⟩ := hfull (by decide +kernel)
  obtain ⟨-, -, hfound, hgiven⟩ := hturned (by decide +kernel)
  have hnone : (((ofCount 100 3).run roundabout).get (webPort 6)).toOption.isNone = true := by
    decide +kernel
  have hsome : (((ofCount 100 3).run turned).get (webPort 6)).toOption.map (·.1) = some 100 := by
    decide +kernel
  refine ⟨?_, by decide +kernel, ?_⟩
  · cases hg : ((ofCount 100 3).run roundabout).get (webPort 6) with
    | ok r =>
      rw [hg] at hnone
      cases hnone
    | error e =>
      obtain ⟨rfl, hbound⟩ := (hrefused e).1 hg
      exact ⟨congrArg Except.error (by decide +kernel), hbound⟩
  · cases hg : ((ofCount 100 3).run turned).get (webPort 6) with
    | error e =>
      rw [hg] at hsome
      cases hsome
    | ok r =>
      rw [hg] at hsome
      obtain ⟨port, q⟩ := r
      cases hsome
      exact ⟨(hfound 100).1 ⟨q, hg⟩, q, rfl, hgiven 100 q hg⟩

end HubFederation.PortPool
