import HubFederation.Proofs.Isolation.Duo

/-!
# Controllers that share a key

A tunnel ConfigMap is named for its route, and routes belong to one pair. The key of a peer
is named for the peer alone. So two controllers stay out of each other's way until both of
them need the key of one peer on one hub: then they keep it under one name, and whichever
of them takes it away takes it from the other one.

* `step_or_shares`: a move keeps the controllers apart, or has them share a key that the
  next move may take away.
* `isolated_iff_no_shared_key`: two controllers are isolated in all runs if and only if
  they share a key in none.
-/
namespace HubFederation.Duo

/-- Two controllers that have not done anything yet. -/
def start (w : World) (pairs : Bool → String × String) (identityFile : String) : Duo :=
  ⟨w, fun i => ⟨.ofPair (pairs i).1 (pairs i).2 identityFile, ∅⟩⟩

/-- Both controllers keep the key of one peer on one hub. -/
def SharesKey (s : Duo) : Prop :=
  ∃ hub peer, ∀ i, (s.ledger.cache i).get? hub (Purpose.key peer).name ≠ none

section
variable {pairs : Bool → String × String} {owner : String → Bool}

theorem sound_start {w : World} (identityFile : String)
    (hserving : w.fleet.failingHubs = ∅ ∧ w.fleet.failingNames = ∅) :
    Sound pairs owner (start w pairs identityFile) :=
  ⟨fun _ => rfl, fun _ _ h => (nomatch h), hserving⟩

theorem held_start {w : World} (identityFile : String)
    (hfound : ∀ i hub name cm, w.fleet.configMaps.get? hub name = some cm →
      (Ledger.labels pairs i).selects cm.labelSet → NamedFor (owner · = i) cm) :
    Ledger.Held pairs owner (start w pairs identityFile).ledger :=
  ⟨fun _ _ _ _ h => (nomatch h), fun _ _ _ _ h => (nomatch h), hfound,
    fun _ _ _ _ h => (nomatch h)⟩

/-- A move keeps the controllers out of each other's way, or makes them share a key, of which
one of them can then deprive the other. -/
theorem step_or_shares (hne : ∀ i, pairs i ≠ pairs (!i)) {s : Duo} (h : Sound pairs owner s)
    (hl : Ledger.Held pairs owner s.ledger) {m : Move} (hm : m.Allowed owner) :
    Ledger.Held pairs owner (s.step m).ledger ∨
      (s.step m).SharesKey ∧ ∃ i, ¬ ((s.step m).step (.close i)).ledger.Isolated := by
  obtain ⟨i, c, ha, hstep | ⟨next, hr, hstep⟩⟩ := ledger_step h m
  · rw [hstep]
    exact .inl (Ledger.held_adopt hl ha)
  · have hadopted := Ledger.held_adopt hl ha
    by_cases hapart : ∀ hub name, next.get? hub name ≠ none →
        ((s.ledger.adopt i c).cache (!i)).get? hub name = none
    · rw [hstep]
      exact .inl (Ledger.held_settle hne hadopted hr hapart)
    · refine .inr ?_
      simp only [Classical.not_forall] at hapart
      obtain ⟨hub, name, hn, hc⟩ := hapart
      constructor
      · obtain ⟨peer, rfl⟩ := Ledger.key_of_clash hadopted hr hn hc
        refine ⟨hub, peer, fun j => ?_⟩
        rw [hstep]
        rcases Bool.eq_or_eq_not j i with rfl | rfl
        · rwa [Ledger.cache_settle_self]
        · rwa [Ledger.cache_settle_not]
      · obtain ⟨c', ha', hclose⟩ := ledger_close (sound_step h hm) (!i)
        refine ⟨!i, ?_⟩
        rw [hclose, hstep]
        rw [hstep, Ledger.cache_settle_not] at ha'
        exact Ledger.not_isolated_of_clash hn hc ha'

theorem not_sharesKey_of_held (hne : ∀ i, pairs i ≠ pairs (!i)) {s : Duo}
    (h : Ledger.Held pairs owner s.ledger) : ¬ s.SharesKey := by
  intro ⟨hub, peer, hshares⟩
  exact hshares true (h.apart hne false hub _ (hshares false))

/-- Closing a controller leaves the other one with what it put in place. -/
theorem isolated_close (hne : ∀ i, pairs i ≠ pairs (!i)) {s : Duo} (h : Sound pairs owner s)
    (hl : Ledger.Held pairs owner s.ledger) (i : Bool) :
    (s.step (.close i)).ledger.Isolated := by
  obtain ⟨c, ha, hclose⟩ := ledger_close h i
  rw [hclose]
  exact (Ledger.held_settle hne (Ledger.held_adopt hl ha) Resources.all_empty
    fun hub name hn => absurd (Resources.get?_empty hub name) hn).isolated

/-- A run keeps the controllers out of each other's way unless, somewhere on it, they share a
key of which one of them can deprive the other. -/
theorem held_run (hne : ∀ i, pairs i ≠ pairs (!i)) (moves : List Move) {s : Duo}
    (h : Sound pairs owner s) (hl : Ledger.Held pairs owner s.ledger)
    (hm : ∀ m ∈ moves, m.Allowed owner)
    (hp : ∀ p, p <+: moves →
      ¬ ((s.run p).SharesKey ∧ ∃ i, ¬ (s.run (p ++ [.close i])).ledger.Isolated)) :
    Sound pairs owner (s.run moves) ∧ Ledger.Held pairs owner (s.run moves).ledger := by
  induction moves generalizing s with
  | nil => exact ⟨h, hl⟩
  | cons m moves ih =>
    have hhead := hm m (List.mem_cons_self ..)
    have hstep : Ledger.Held pairs owner (s.step m).ledger := by
      rcases step_or_shares hne h hl hhead with hstep | hshares
      · exact hstep
      · exact absurd hshares (hp [m] ⟨moves, rfl⟩)
    refine ih (sound_step h hhead) hstep
      (fun m' hm' => hm m' (List.mem_cons_of_mem _ hm')) fun p hpre => ?_
    exact hp (m :: p) (List.cons_prefix_cons.2 ⟨rfl, hpre⟩)

/-- Two controllers of different pairs, whose routes have names of their own, on hubs that
answer every call. Along a run of synchronizations and teardowns, whatever a controller put in
place stays on its hub as it is, whichever of them is closed next, if and only if they never
come to keep the key of one peer on one hub both. -/
theorem isolated_iff_no_shared_key {w : World} (identityFile : String)
    (hpairs : pairs false ≠ pairs true)
    (hserving : w.fleet.failingHubs = ∅ ∧ w.fleet.failingNames = ∅)
    (hfound : ∀ i hub name cm, w.fleet.configMaps.get? hub name = some cm →
      (Ledger.labels pairs i).selects cm.labelSet → NamedFor (owner · = i) cm)
    {moves : List Move} (hm : ∀ m ∈ moves, m.Allowed owner) :
    (∀ p, p <+: moves → ((start w pairs identityFile).run p).ledger.Isolated ∧
        ∀ i, ((start w pairs identityFile).run (p ++ [.close i])).ledger.Isolated) ↔
      ∀ p, p <+: moves → ¬ ((start w pairs identityFile).run p).SharesKey := by
  have hne : ∀ i, pairs i ≠ pairs (!i)
    | false => hpairs
    | true => hpairs.symm
  have hrun (p : List Move) (hp : p <+: moves) := held_run hne p (sound_start identityFile hserving)
    (held_start identityFile hfound) fun m hmp => hm m (hp.subset hmp)
  constructor
  · intro hiso p hp
    obtain ⟨-, hheld⟩ := hrun p hp fun q hq ⟨_, i, hbroken⟩ =>
      hbroken ((hiso q (hq.trans hp)).2 i)
    exact not_sharesKey_of_held hne hheld
  · intro hkeys p hp
    obtain ⟨hsound, hheld⟩ := hrun p hp fun q hq ⟨hshares, _⟩ => hkeys q (hq.trans hp) hshares
    refine ⟨hheld.isolated, fun i => ?_⟩
    have hclose := isolated_close hne hsound hheld i
    unfold run at hclose ⊢
    rwa [List.foldl_append]

end

/-! ## Opposite pairs -/

/-- Two pairs of the same hubs, in opposite directions. -/
def opposite : Bool → String × String
  | false => ("a", "b")
  | true => ("b", "a")

/-- Of two routes, the second one is for the second pair. -/
def ofSecond (route : String) : Bool := route = "r2"

/-- Two hubs that are ready, each with a service. Only one of them can be dialed, and the
other one has a key to do so. -/
def oneDialed : World where
  fleet := { Fleet.ofPool default with
    ready := ((∅ : SortedSet String).add "a").add "b"
    graph := ⟨(∅ : SortedMap String Gateway).insert "a" ⟨true, "a:22", [], [], [], []⟩, ∅⟩
    keys := (∅ : SortedMap String String).insert "b" "key"
    services := ((∅ : SortedMap (String × String × String) Service).insert ("a", "n", "s")
      ⟨.empty, [⟨none, none, 80, none⟩]⟩).insert ("b", "n", "s") ⟨.empty, [⟨none, none, 80, none⟩]⟩ }
  board := .ofCapacity 1
  counters := .empty
  journal := []
  clock := default

/-- One controller puts its tunnel in place, then the other one does and is closed. -/
def thereAndBack : List Move :=
  [.assign false [⟨some "n", "r1", ⟨⟨"a", ⟨"n", "s"⟩⟩, ⟨"b", ⟨"n", "s"⟩⟩⟩, none⟩], .sync false,
    .assign true [⟨some "n", "r2", ⟨⟨"b", ⟨"n", "s"⟩⟩, ⟨"a", ⟨"n", "s"⟩⟩⟩, none⟩], .sync true,
    .close true]

/-- The key that the first controller put in place is gone. -/
theorem key_taken_away :
    (((start oneDialed opposite "/key").run thereAndBack).ledger.placed false).get? "a"
        "b-authorized" ≠ none ∧
      ((start oneDialed opposite "/key").run thereAndBack).ledger.hubs.get? "a"
        "b-authorized" = none := by
  decide +kernel

/-- Controllers of opposite pairs are not isolated: the teardown of one takes away the key
that the tunnel of the other needs. -/
theorem not_isolated_opposite :
    ¬ ((start oneDialed opposite "/key").run thereAndBack).ledger.Isolated := by
  intro h
  obtain ⟨cm, hcm⟩ := Option.ne_none_iff_exists'.1 key_taken_away.1
  have hhub := h false "a" "b-authorized" cm hcm
  rw [key_taken_away.2] at hhub
  cases hhub

/-- So they come to share a key on the way. -/
theorem sharesKey_opposite :
    ∃ p, p <+: thereAndBack ∧ ((start oneDialed opposite "/key").run p).SharesKey := by
  have hfound : ∀ i hub name cm, oneDialed.fleet.configMaps.get? hub name = some cm →
      (Ledger.labels opposite i).selects cm.labelSet → NamedFor (ofSecond · = i) cm := by
    intro i hub name cm h
    rw [show oneDialed.fleet.configMaps = ∅ from rfl, Resources.get?_empty] at h
    cases h
  have hm : ∀ m ∈ thereAndBack, m.Allowed ofSecond := by
    simp [thereAndBack, Move.Allowed, ofSecond]
  refine Classical.byContradiction fun hno => ?_
  have hiso := (isolated_iff_no_shared_key "/key" (by decide) ⟨rfl, rfl⟩ hfound hm).2
    fun p hp hs => hno ⟨p, hp, hs⟩
  obtain ⟨cm, hcm⟩ := Option.ne_none_iff_exists'.1 key_taken_away.1
  have hhub := (hiso thereAndBack (List.prefix_refl _)).1 false "a" "b-authorized" cm hcm
  rw [key_taken_away.2] at hhub
  cases hhub

end HubFederation.Duo
