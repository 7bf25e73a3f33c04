import HubFederation.Proofs.Ports.Probing
import Mathlib.Data.List.Induction
import Mathlib.Data.List.Nodup

/-!
# How many peers a new pool serves

A new pool hands its ports out in order, one to each new peer that asks, until all are bound; from
then on it refuses whoever has none. The pool ends before a number that has to be a port itself, so
that port 65535 is in no pool: one that was made to reach up to it serves one peer less than it was
made for.

* `filled_run`: what a new pool holds once distinct peers have asked.
* `serves_count_iff`: which pools serve as many peers as they were made for.
-/
namespace HubFederation.PortPool

variable {p q : PortPool} {peers : List ExportedPort} {peer : ExportedPort} {port : Port}

/-- Distinct peers ask one after the other. The first `n` of them are handed the ports from `start`
on, in order, and all others are refused. -/
def Serves (p : PortPool) (n : Nat) : Prop :=
  ∀ (asked : List ExportedPort) (peer : ExportedPort), asked.Nodup → peer ∉ asked →
    let q := p.run (asked.map .get)
    (asked.length < n →
      ∃ port r, q.get peer = .ok (port, r) ∧ port.toNat = p.start.toNat + asked.length) ∧
    (n ≤ asked.length → q.get peer = .error (.exhausted p.start p.stop))

/-- The first ports of a pool are bound to `peers`, one to each, and no others are. The cursor
stands behind them. -/
structure Filled (p : PortPool) (peers : List ExportedPort) : Prop where
  sound : p.Sound
  served : ∀ peer, p.portOf? peer = none ↔ peer ∉ peers
  bound : ∀ port, p.peerOf? port = none ↔
    ¬ (p.start.toNat ≤ port.toNat ∧ port.toNat < p.start.toNat + peers.length)
  cursor : peers.length < p.capacity → p.cursor.toNat = p.start.toNat + peers.length

theorem filled_ofCount (start count : Port) : (ofCount start count).Filled [] where
  sound := sound_ofCount start count
  served _ := iff_of_true rfl List.not_mem_nil
  bound _ := iff_of_true rfl fun ⟨hle, hlt⟩ => Nat.not_lt.2 hle hlt
  cursor _ := rfl

/-! ## One more peer -/

/-- While there is room, the search ends where it begins. -/
theorem Filled.nextFree_cursor (h : p.Filled peers) (hroom : peers.length < p.capacity) :
    p.NextFree p.cursor where
  holds := h.sound.holds_cursor (Nat.zero_lt_of_lt hroom)
  free := (h.bound p.cursor).2 fun hbound => by
    rw [h.cursor hroom] at hbound
    exact Nat.lt_irrefl _ hbound.2
  first port' _ hahead := by
    have hzero : p.ahead p.cursor = 0 := by simp [ahead]
    rw [hzero] at hahead
    exact absurd hahead (Nat.not_lt_zero _)

/-- While there is room, a new peer is handed the port behind those that are bound. -/
theorem Filled.get (h : p.Filled peers) (hroom : peers.length < p.capacity) (hnew : peer ∉ peers) :
    ∃ q, p.get peer = .ok (p.cursor, q) ∧ q.Filled (peers ++ [peer]) := by
  have hfree := h.nextFree_cursor hroom
  have hnone := (h.served peer).2 hnew
  obtain ⟨q, hget⟩ := (exists_get_eq_ok_iff hnone).2 ((firstFree_eq_some_iff h.sound).2 hfree)
  obtain ⟨hports, hpeers, ⟨hstart, hstop⟩, hcursor⟩ := handsOut_of_get h.sound hnone hget
  have hcapacity : q.capacity = p.capacity := by
    unfold capacity
    rw [hstart, hstop]
  refine ⟨q, hget, h.sound.get hget, fun peer' => ?_, fun port => ?_, fun hroom' => ?_⟩
  · rw [hports, List.mem_append, List.mem_singleton, not_or]
    split
    next he => exact iff_of_false nofun fun hother => hother.2 he
    next hne => exact (h.served peer').trans ⟨fun hout => ⟨hout, hne⟩, fun hout => hout.1⟩
  · rw [hpeers, hstart, List.length_append, List.length_singleton]
    have hplace := h.cursor hroom
    split
    next he =>
      subst he
      exact iff_of_false nofun fun hout => hout ⟨by omega, by omega⟩
    next hne =>
      have hne' : port.toNat ≠ p.cursor.toNat := fun he => hne (UInt16.toNat_inj.1 he)
      rw [h.bound port]
      omega
  · rw [List.length_append, List.length_singleton] at hroom' ⊢
    rw [hcapacity] at hroom'
    rw [hcursor, hstart, h.cursor hroom]
    unfold capacity at hroom'
    exact if_pos (by omega)

/-- Where there is no room left, a new peer is refused. -/
theorem Filled.refuses (h : p.Filled peers) (hfull : p.capacity ≤ peers.length)
    (hnew : peer ∉ peers) : p.get peer = .error (.exhausted p.start p.stop) := by
  refine (get_eq_error_iff ((h.served peer).2 hnew)).2
    ⟨rfl, (firstFree_eq_none_iff h.sound).2 fun port hheld hfree => ?_⟩
  rw [holds_iff] at hheld
  unfold capacity at hfull
  exact (h.bound port).1 hfree ⟨hheld.1, by omega⟩

/-! ## Peers one after the other -/

theorem capacity_run (p : PortPool) (ms : List Move) : (p.run ms).capacity = p.capacity := by
  obtain ⟨hstart, hstop⟩ := sameRange_run p ms
  unfold capacity
  rw [hstart, hstop]

/-- Once distinct peers have asked a new pool, its first ports are bound to the first of them. -/
theorem filled_run (h : p.Filled []) (hnodup : peers.Nodup) :
    (p.run (peers.map .get)).Filled (peers.take p.capacity) := by
  induction peers using List.reverseRecOn with
  | nil =>
    rw [List.take_nil]
    exact h
  | append_singleton peers peer ih =>
    obtain ⟨hnodup, -, hnew⟩ := List.nodup_append.1 hnodup
    have hnew : peer ∉ peers := fun hmem => hnew peer hmem peer (List.mem_singleton.2 rfl) rfl
    have hasked := ih hnodup
    have hstep : p.run ((peers ++ [peer]).map .get) =
        (p.run (peers.map .get)).step (.get peer) := by
      simp [run]
    rw [hstep, step]
    have hcapacity := p.capacity_run (peers.map .get)
    by_cases hroom : peers.length < p.capacity
    · -- All who asked before were served.
      rw [List.take_of_length_le (Nat.le_of_lt hroom)] at hasked
      obtain ⟨q, hget, hfilled⟩ := hasked.get (hcapacity ▸ hroom) hnew
      rw [hget, List.take_of_length_le (by rw [List.length_append]; exact hroom)]
      exact hfilled
    · have hlength : (peers.take p.capacity).length = p.capacity :=
        List.length_take_of_le (Nat.not_lt.1 hroom)
      rw [hasked.refuses (by rw [hcapacity, hlength]) fun hmem => hnew (List.mem_of_mem_take hmem),
        List.take_append_of_le_length (Nat.not_lt.1 hroom)]
      exact hasked

/-- A new pool serves one peer for each port that it hands out. -/
theorem Filled.serves (h : p.Filled []) : p.Serves p.capacity := by
  intro asked peer hnodup hnew q
  have hasked := filled_run h hnodup
  have hcapacity := p.capacity_run (asked.map .get)
  obtain ⟨hstart, hstop⟩ := sameRange_run p (asked.map .get)
  constructor
  · intro hroom
    rw [List.take_of_length_le (Nat.le_of_lt hroom)] at hasked
    rw [← hcapacity] at hroom
    obtain ⟨r, hget, -⟩ := hasked.get hroom hnew
    exact ⟨q.cursor, r, hget, by rw [hasked.cursor hroom, hstart]⟩
  · intro hfull
    have hlength : (asked.take p.capacity).length = p.capacity := List.length_take_of_le hfull
    rw [hasked.refuses (by rw [hcapacity, hlength]) fun hmem => hnew (List.mem_of_mem_take hmem),
      hstart, hstop]

/-! ## The capacity that was asked for -/

theorem capacity_ofCount (start count : Port) :
    (ofCount start count).capacity = min count.toNat (65535 - start.toNat) := by
  have hstop : (ofCount start count).stop.toNat = min 65535 (start.toNat + count.toNat) :=
    UInt16.toNat_ofNat_of_lt' (Nat.lt_succ_of_le (Nat.min_le_left ..))
  have hstart : (ofCount start count).start = start := rfl
  have hle := Port.toNat_le start
  unfold capacity
  rw [hstop, hstart]
  omega

/-- There are as many exported ports as names. -/
theorem exists_peers (n : Nat) : ∃ peers : List ExportedPort, peers.Nodup ∧ peers.length = n := by
  refine ⟨(List.range n).map fun i => ⟨"", "", String.ofList (.replicate i 'a'), 0⟩, ?_, ?_⟩
  · refine List.Nodup.map (fun i j he => ?_) List.nodup_range
    have hname := congrArg (fun peer : ExportedPort => peer.name.toList.length) he
    simpa using hname
  · rw [List.length_map, List.length_range]

/-- A pool serves one number of peers. -/
theorem Serves.not_lt {m n : Nat} (hm : p.Serves m) (hn : p.Serves n) : ¬ m < n := by
  intro hlt
  obtain ⟨peers, hnodup, hlength⟩ := exists_peers (m + 1)
  obtain ⟨peer, asked, rfl⟩ := List.exists_cons_of_length_eq_add_one hlength
  obtain ⟨hnew, hnodup⟩ := List.nodup_cons.1 hnodup
  obtain rfl : asked.length = m := Nat.succ_inj.1 hlength
  have hrefused := (hm asked peer hnodup hnew).2 (Nat.le_refl _)
  obtain ⟨port, r, hget, -⟩ := (hn asked peer hnodup hnew).1 hlt
  rw [hget] at hrefused
  cases hrefused

theorem serves_ofCount_iff {start count : Port} {n : Nat} :
    (ofCount start count).Serves n ↔ n = min count.toNat (65535 - start.toNat) := by
  have hserves := (filled_ofCount start count).serves
  rw [capacity_ofCount] at hserves
  constructor
  · intro h
    exact Nat.le_antisymm (Nat.not_lt.1 (hserves.not_lt h)) (Nat.not_lt.1 (h.not_lt hserves))
  · rintro rfl
    exact hserves

/-- A new pool serves distinct peers in order, as many as it was made for or as there are ports from
its first one up to 65534. So it serves as many as it was made for if and only if port 65535 is not
to be among its ports. -/
theorem serves_count_iff (start count : Port) :
    (ofCount start count).Serves (min count.toNat (65535 - start.toNat)) ∧
      ((ofCount start count).Serves count.toNat ↔ start.toNat + count.toNat ≤ 65535) := by
  refine ⟨serves_ofCount_iff.2 rfl, serves_ofCount_iff.trans ?_⟩
  have := Port.toNat_le start
  omega

/-- A pool of the last two ports serves one peer. -/
theorem not_serves_last_port :
    ¬ ∀ start count : Port, start.toNat + count.toNat ≤ 65536 →
      (ofCount start count).Serves count.toNat := by
  intro h
  have htwo : (2 : Port).toNat = min (2 : Port).toNat (65535 - (65534 : Port).toNat) :=
    serves_ofCount_iff.1 (h 65534 2 (by decide))
  revert htwo
  decide

end HubFederation.PortPool
