import HubFederation.Proofs.Routes.Records

/-!
# Ports that somebody will give back

When a route goes, the index gives back the ports that it had recorded for the route and
those that its service has at that moment. A bound port is claimed if one of the two will
bring it back some day. A port that nobody claims stays bound for good.

* `tidy_handle`, `tidy_allocateAll`: where every bound port is claimed, the index keeps it so.
* `stray_delete`: deleting a route does not bring back a port that nobody claims.
-/
namespace HubFederation.RouteIndex

/-- A route records the port, or publishes it as one that its service has. -/
def Claims (x : RouteIndex) (w : World) (hub : String) (peer : ExportedPort) : Prop :=
  (∃ id, x.Records id hub peer) ∨ (x.Exports hub peer ∧ w.Offers peer)

/-- Every port that is bound is claimed, or `owed` already. -/
def TidyBut (owed : String → ExportedPort → Prop) (s : RouteIndex × World) : Prop :=
  ∀ hub peer, (s.2.pool hub).portOf? peer ≠ none → s.1.Claims s.2 hub peer ∨ owed hub peer

/-- Every port that is bound is claimed. -/
def Tidy (x : RouteIndex) (w : World) : Prop :=
  ∀ hub peer, (w.pool hub).portOf? peer ≠ none → x.Claims w hub peer

/-- A port is bound that nobody claims. -/
def Stray (s : RouteIndex × World) (hub : String) (peer : ExportedPort) : Prop :=
  (s.2.pool hub).portOf? peer ≠ none ∧ ¬ s.1.Claims s.2 hub peer

theorem tidyBut_iff_tidy {x : RouteIndex} {w : World} :
    TidyBut (fun _ _ => False) (x, w) ↔ x.Tidy w := by
  simp only [TidyBut, Tidy, or_false]

theorem tidy_iff_not_stray {x : RouteIndex} {w : World} :
    x.Tidy w ↔ ∀ hub peer, ¬ Stray (x, w) hub peer := by
  simp only [Tidy, Stray, not_and, Classical.not_not]

theorem exports_of_routes {x y : RouteIndex} (h : y.routes = x.routes) (hub : String)
    (peer : ExportedPort) : y.Exports hub peer ↔ x.Exports hub peer := by
  unfold Exports
  rw [h]

theorem exports_allocate (s : RouteIndex × World) (id : RouteId) (hub : String)
    (peer : ExportedPort) : (allocate s id).1.Exports hub peer ↔ s.1.Exports hub peer :=
  exports_of_routes (routes_allocate s.1 s.2 id) hub peer

theorem offers_allocate (s : RouteIndex × World) (id : RouteId) (peer : ExportedPort) :
    (allocate s id).2.Offers peer ↔ s.2.Offers peer :=
  World.offers_of_agrees (agrees_allocate s.1 s.2 id) peer

/-- A port that a route bound for itself was claimed by the route. -/
theorem claims_of_bound {x : RouteIndex} {w : World} {id : RouteId} {r : Route}
    {wanted bound : List ExportedPort} {w₁ : World} {hub : String} {peer : ExportedPort}
    (hroute : x.routes.get? id = some r) (hw : wantedPorts? w r = some wanted)
    (hb : Binds r.spec.target.hub wanted w w₁ bound)
    (h : hub = r.spec.target.hub ∧ peer ∈ bound) : x.Exports hub peer ∧ w.Offers peer := by
  obtain ⟨rfl, hmem⟩ := h
  obtain ⟨hexp, hoffers⟩ := Exports_of_mem hw (hb.within hmem)
  exact ⟨⟨id, r, hroute, hexp⟩, hoffers⟩

/-! ## Binding the ports of routes -/

/-- What a route newly binds it records; what it no longer records is given back. -/
theorem tidyBut_allocate {owed : String → ExportedPort → Prop} {s : RouteIndex × World}
    (h : TidyBut owed s) (id : RouteId) : TidyBut owed (allocate s id) := by
  intro hub peer hp
  unfold Claims
  rw [exports_allocate, offers_allocate]
  obtain ⟨x, w⟩ := s
  rcases x.allocate_cases w id with ⟨he, -⟩ | ⟨r, wanted, w₁, bound, -, -, -, hb, he⟩
  · rw [he] at hp ⊢
    exact h hub peer hp
  · rw [he] at hp ⊢
    by_cases hrec : ∃ id', (x.record id r.spec.target.hub bound).Records id' hub peer
    · exact .inl (.inl hrec)
    · have hnamed : ¬ Names (x.allocated.get? id) hub peer := fun hn =>
        hp (portOf?_discharge_of_freed hn hrec)
      rw [portOf?_discharge_of_kept (.inl hnamed)] at hp
      rcases hb.fresh hp with hp | hnew
      · rcases h hub peer hp with (⟨id', hrec'⟩ | hclaim) | howed
        · have hne : id' ≠ id := fun hid => hnamed (hid ▸ hrec')
          exact absurd ⟨id', (records_record ..).2 (by rwa [if_neg hne])⟩ hrec
        · exact .inl (.inr hclaim)
        · exact .inr howed
      · exact absurd ⟨id, (records_record ..).2 (by rwa [if_pos rfl])⟩ hrec

theorem tidyBut_allocateAll {owed : String → ExportedPort → Prop} {x : RouteIndex} {w : World}
    (h : TidyBut owed (x, w)) : TidyBut owed (x.allocateAll w) :=
  allocateAll_induction (P := TidyBut owed) (fun _ id h => tidyBut_allocate h id) h

theorem tidy_allocateAll {x : RouteIndex} {w : World} (h : x.Tidy w) :
    (x.allocateAll w).1.Tidy (x.allocateAll w).2 :=
  tidyBut_iff_tidy.1 (tidyBut_allocateAll (tidyBut_iff_tidy.2 h))

/-- A route neither records a port that nobody claims, nor gives it back. -/
theorem stray_allocate {s : RouteIndex × World} {hub : String} {peer : ExportedPort}
    (h : Stray s hub peer) (id : RouteId) : Stray (allocate s id) hub peer := by
  obtain ⟨hp, hclaim⟩ := h
  unfold Stray Claims
  rw [exports_allocate, offers_allocate]
  obtain ⟨x, w⟩ := s
  rcases x.allocate_cases w id with ⟨he, -⟩ | ⟨r, wanted, w₁, bound, hroute, -, hw, hb, he⟩
  · rw [he]
    exact ⟨hp, hclaim⟩
  · rw [he]
    obtain ⟨port, hport⟩ := Option.ne_none_iff_exists'.1 hp
    refine ⟨?_, ?_⟩
    · rw [portOf?_discharge_of_kept (.inl fun hn => hclaim (.inl ⟨id, hn⟩)), hb.kept hport]
      exact Option.some_ne_none _
    · rintro (⟨id', hrec⟩ | hother)
      · rw [records_record] at hrec
        split at hrec
        · exact hclaim (.inr (claims_of_bound hroute hw hb hrec))
        · exact hclaim (.inl ⟨id', hrec⟩)
      · exact hclaim (.inr hother)

/-! ## Exchanging a route -/

/-- What the index gives back for a route after it has gone. -/
def owed (x : RouteIndex) (w : World) (id : RouteId) (hub : String) (peer : ExportedPort) : Prop :=
  ∃ old, x.routes.get? id = some old ∧ Owes w old (x.allocated.get? id) hub peer

/-- What is claimed by nobody but a route is owed once the route is gone. -/
theorem claims_erase {x : RouteIndex} (hx : x.Honest) {w : World} {id : RouteId}
    {routes : SortedMap RouteId Route} (hroutes : ∀ id' ≠ id, routes.get? id' = x.routes.get? id')
    {hub : String} {peer : ExportedPort} (h : x.Claims w hub peer) :
    (⟨routes, x.allocated.erase id⟩ : RouteIndex).Claims w hub peer ∨ x.owed w id hub peer := by
  rcases h with ⟨id', hrec⟩ | ⟨⟨id', r, hroute, hexp⟩, hoffers⟩
  · by_cases hid : id' = id
    · subst hid
      obtain ⟨old, hold, -⟩ := hx.exports hrec
      exact .inr ⟨old, hold, .inl hrec⟩
    · exact .inl (.inl ⟨id', records_erase.2 ⟨hid, hrec⟩⟩)
  · by_cases hid : id' = id
    · subst hid
      exact .inr ⟨r, hroute, .inr ⟨hexp, hoffers⟩⟩
    · exact .inl (.inr ⟨⟨id', r, (hroutes id' hid).trans hroute, hexp⟩, hoffers⟩)

theorem tidy_exchange {x : RouteIndex} (hx : x.Honest) {w : World} (h : x.Tidy w) {id : RouteId}
    {routes : SortedMap RouteId Route} (hroutes : ∀ id' ≠ id, routes.get? id' = x.routes.get? id') :
    (x.exchange w id routes).1.Tidy (x.exchange w id routes).2 := by
  have hagrees := agrees_allocateAll ⟨routes, x.allocated.erase id⟩ w
  have hall : TidyBut (x.owed w id) (allocateAll ⟨routes, x.allocated.erase id⟩ w) :=
    tidyBut_allocateAll fun hub peer hp => claims_erase hx hroutes (h hub peer hp)
  unfold exchange
  cases hold : x.routes.get? id with
  | none =>
    intro hub peer hp
    refine (hall hub peer hp).resolve_right fun ⟨old, hold', _⟩ => ?_
    rw [hold] at hold'
    cases hold'
  | some old =>
    simp only
    intro hub peer hp
    unfold Claims
    rw [World.offers_of_agrees (agrees_releaseRoute _ _ _ _)]
    by_cases hrec : ∃ id', (allocateAll ⟨routes, x.allocated.erase id⟩ w).1.Records id' hub peer
    · exact .inl hrec
    · have hkept : ¬ Owes (allocateAll ⟨routes, x.allocated.erase id⟩ w).2 old
          (x.allocated.get? id) hub peer :=
        fun howes => hp (portOf?_releaseRoute_of_freed howes hrec)
      rw [portOf?_releaseRoute_of_kept (.inl hkept)] at hp
      refine (hall hub peer hp).resolve_right fun ⟨old', hold', howes⟩ => hkept ?_
      rw [hold] at hold'
      cases hold'
      exact howes.imp_right fun h => ⟨h.1, (World.offers_of_agrees hagrees peer).2 h.2⟩

/-- The index gives back, some time, whatever it claims, and claims whatever it binds. -/
theorem tidy_handle {x : RouteIndex} (hx : x.Honest) {w : World} (h : x.Tidy w) (c : Request) :
    (x.handle w c).index.Tidy (x.handle w c).world := by
  rcases handle_cases hx w c with ⟨-, hindex, hworld⟩ | ⟨id, routes, -, hroutes, he⟩
  · rw [hindex, hworld]
    exact h
  · have htidy := tidy_exchange hx h hroutes
    rwa [← he] at htidy

/-- Deleting a route brings back nothing that nobody claims. -/
theorem stray_delete {x : RouteIndex} (hx : x.Honest) {w : World} {hub : String}
    {peer : ExportedPort} (h : Stray (x, w) hub peer) (id : RouteId) :
    Stray ((x.delete w id).index, (x.delete w id).world) hub peer := by
  unfold delete
  rcases remove_cases hx w id with ⟨-, hindex, hworld⟩ | he
  · rwa [hindex, hworld]
  · rw [he]
    have hclaim : ¬ (⟨x.routes.erase id, x.allocated.erase id⟩ : RouteIndex).Claims w hub peer := by
      rintro (⟨id', hrec⟩ | ⟨⟨id', r, hroute, hexp⟩, hoffers⟩)
      · exact h.2 (.inl ⟨id', (records_erase.1 hrec).2⟩)
      · have hkept := (SortedMap.get?_erase_eq_some.1 hroute).2
        exact h.2 (.inr ⟨⟨id', r, hkept, hexp⟩, hoffers⟩)
    have hall : Stray (allocateAll ⟨x.routes.erase id, x.allocated.erase id⟩ w) hub peer :=
      allocateAll_induction (P := fun s => Stray s hub peer) (fun _ id h => stray_allocate h id)
        ⟨h.1, hclaim⟩
    have hagrees := agrees_allocateAll ⟨x.routes.erase id, x.allocated.erase id⟩ w
    unfold exchange
    cases hold : x.routes.get? id with
    | none => exact hall
    | some old =>
      have hkept : ¬ Owes (allocateAll ⟨x.routes.erase id, x.allocated.erase id⟩ w).2 old
          (x.allocated.get? id) hub peer := by
        rintro (hn | ⟨hexp, hoffers⟩)
        · exact h.2 (.inl ⟨id, hn⟩)
        · exact h.2 (.inr ⟨⟨id, old, hold, hexp⟩, (World.offers_of_agrees hagrees peer).1 hoffers⟩)
      refine ⟨?_, ?_⟩
      · rw [portOf?_releaseRoute_of_kept (.inl hkept)]
        exact hall.1
      · unfold Claims
        rw [World.offers_of_agrees (agrees_releaseRoute _ _ _ _)]
        exact hall.2

end HubFederation.RouteIndex
