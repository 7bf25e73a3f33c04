import HubFederation.Chain.Bound
import HubFederation.Proofs.Chain.Joints
import HubFederation.Proofs.Endpoint.RoundTrip

/-!
# The entrances along a way

An entrance is where the tunnel of a hub is dialed: for each pair of neighbours that of the hub
that is dialed, and those of the hubs among its relays. A relay that is a proxy was read from a
text, so it can be read back, but the address of an entrance is taken from a gateway as it is.

* `covers_joints`: the hops of the joints are their entrances, and proxies that can be read back.
* `canonical_enter_iff`: once a hub has logged in, an entrance can be read back if and only if its
  address can be told from what stands before and after it.
-/
namespace HubFederation

/-! ## Addresses -/

/-- An address that is read from the text of a hop as it was written. -/
structure SshHop.Addressable (address : String) : Prop where
  separators : '?' ∉ address.toList ∧ '@' ∉ address.toList
  /-- A port follows its last colon. -/
  port : ∃ host digits port, address.toList = host ++ ':' :: digits ∧ ':' ∉ digits ∧
    Port.ofChars? digits = some port

theorem SshHop.addressable_iff {address : String} : Addressable address ↔
    ('?' ∉ address.toList ∧ '@' ∉ address.toList) ∧ hasPort address.toList = true := by
  rw [hasPort_iff]
  exact ⟨fun h => ⟨h.separators, h.port⟩, fun h => ⟨h.1, h.2⟩⟩

instance (address : String) : Decidable (SshHop.Addressable address) :=
  decidable_of_iff _ SshHop.addressable_iff.symm

/-! ## Entrances -/

/-- The tunnel of a hub, at an address. -/
structure Entrance where
  hub : String
  address : String
  deriving DecidableEq, Repr

namespace Entrance

def endpoint (d : Entrance) : Endpoint := .ssh (.toHub d.address d.hub)

/-- The entrance that a relay of `runner` is, unless it is a proxy. -/
def ofHop (gateway : Gateways) (runner : String) : Hop → List Entrance
  | .hub hub => [⟨hub, (gateway hub runner).address⟩]
  | .proxy _ => []

/-- The entrances through which `runner` dials `target`. -/
def through (gateway : Gateways) (runner target : String) : List Entrance :=
  ⟨target, (gateway target runner).address⟩ ::
    ((gateway target runner).receptionProxy ++ (gateway runner target).navigationProxy).flatMap
      (ofHop gateway runner)

/-- The entrances between two neighbours, whichever of them dials the other. -/
def between (gateway : Gateways) (pair : String × String) : List Entrance :=
  if (gateway pair.1 pair.2).reachable then through gateway pair.2 pair.1
  else through gateway pair.1 pair.2

/-- The entrances along a way. -/
def along (gateway : Gateways) (way : List String) : List Entrance :=
  (Chains.neighbours way).flatMap (between gateway)

/-- Endpoints among which every entrance is, and no others but such as can be read back. -/
structure Covers (ds : List Entrance) (es : List Endpoint) : Prop where
  all : ∀ d ∈ ds, d.endpoint ∈ es
  only : ∀ e ∈ es, e.Canonical ∨ ∃ d ∈ ds, e = d.endpoint

theorem covers_nil : Covers [] [] := ⟨by simp, by simp⟩

theorem covers_singleton (d : Entrance) : Covers [d] [d.endpoint] where
  all d' h := by rw [List.mem_singleton.1 h]; exact List.mem_singleton_self _
  only e h := .inr ⟨d, List.mem_singleton_self d, List.mem_singleton.1 h⟩

theorem covers_canonical {e : Endpoint} (h : e.Canonical) : Covers [] [e] where
  all _ hd := nomatch hd
  only _ he := .inl (List.mem_singleton.1 he ▸ h)

theorem Covers.append {ds ds' : List Entrance} {es es' : List Endpoint} (h : Covers ds es)
    (h' : Covers ds' es') : Covers (ds ++ ds') (es ++ es') where
  all d hd := by
    rcases List.mem_append.1 hd with hd | hd
    · exact List.mem_append_left _ (h.all d hd)
    · exact List.mem_append_right _ (h'.all d hd)
  only e he := by
    rcases List.mem_append.1 he with he | he
    · rcases h.only e he with hc | ⟨d, hd, hed⟩
      · exact .inl hc
      · exact .inr ⟨d, List.mem_append_left _ hd, hed⟩
    · rcases h'.only e he with hc | ⟨d, hd, hed⟩
      · exact .inl hc
      · exact .inr ⟨d, List.mem_append_right _ hd, hed⟩

/-- What comes of a list item by item holds the entrances of all items. -/
theorem covers_mapM {α β : Type} {f : α → Except ChainError β} {ds : α → List Entrance}
    {hops : β → List Endpoint} (hf : ∀ a b, f a = .ok b → Covers (ds a) (hops b)) {as : List α}
    {bs : List β} (h : as.mapM f = .ok bs) : Covers (as.flatMap ds) (bs.flatMap hops) := by
  induction as generalizing bs with
  | nil =>
    cases h
    exact covers_nil
  | cons a as ih =>
    rw [List.mapM_cons] at h
    obtain ⟨b, hb, h⟩ := bind_eq_ok.1 h
    obtain ⟨bs', hbs, h⟩ := bind_eq_ok.1 h
    cases h
    exact (hf a b hb).append (ih hbs)

theorem covers_relay {gateway : Gateways} {runner : String} {hop : Hop} {e : Endpoint}
    (h : Tunnel.relay gateway runner hop = .ok e) : Covers (ofHop gateway runner hop) [e] := by
  cases hop with
  | hub hub =>
    cases h
    exact covers_singleton _
  | proxy uri =>
    change (Endpoint.parse uri).mapError ChainError.endpoint = .ok e at h
    cases hparse : Endpoint.parse uri with
    | error err =>
      rw [hparse] at h
      cases h
    | ok e' =>
      rw [hparse] at h
      cases h
      exact covers_canonical (Endpoint.canonical_of_parse hparse)

theorem covers_relays {gateway : Gateways} {runner : String} {hops : List Hop}
    {es : List Endpoint} (h : Tunnel.relays gateway runner hops = .ok es) :
    Covers (hops.flatMap (ofHop gateway runner)) es := by
  have hcovers := covers_mapM (fun _ _ => covers_relay) h
  rwa [List.flatMap_singleton'] at hcovers

theorem covers_dial {gateway : Gateways} {runner target : String} {es : List Endpoint}
    (h : Tunnel.dial gateway runner target = .ok es) :
    Covers (through gateway runner target) es := by
  obtain ⟨reception, hreception, h⟩ := bind_eq_ok.1 h
  obtain ⟨navigation, hnavigation, h⟩ := bind_eq_ok.1 h
  cases h
  unfold through
  rw [List.flatMap_append]
  exact (covers_singleton ⟨target, (gateway target runner).address⟩).append
    ((covers_relays hreception).append (covers_relays hnavigation))

theorem covers_joint {gateway : Gateways} {exporting importing : String} {j : Joint}
    (h : joint gateway exporting importing = .ok j) :
    Covers (between gateway (exporting, importing)) j.hops := by
  unfold joint at h
  unfold between
  split at h
  next hr =>
    obtain ⟨hops, hdial, rfl⟩ := map_eq_ok.1 h
    rw [if_pos hr]
    exact covers_dial hdial
  next hr =>
    split at h
    · obtain ⟨hops, hdial, rfl⟩ := map_eq_ok.1 h
      rw [if_neg hr]
      exact covers_dial hdial
    · cases h

theorem covers_joints {gateway : Gateways} {way : List String} {js : List Joint}
    (h : joints gateway way = .ok js) : Covers (along gateway way) (js.flatMap (·.hops)) :=
  covers_mapM (fun _ _ => covers_joint) h

end Entrance

/-! ## Logging in -/

/-- An endpoint behind the local end of a stack, once `runner` has logged in. -/
def Endpoint.enter (runner identityFile : String) : Endpoint → Endpoint
  | .ssh hop => .ssh (hop.authenticate runner identityFile)
  | e => e

theorem Chain.authenticateStack_cons (runner identityFile : String) (last : Endpoint)
    (hops : List Endpoint) : authenticateStack runner identityFile (last :: hops) =
      last :: hops.map (Endpoint.enter runner identityFile) := by
  rw [authenticateStack, List.cons.injEq]
  refine ⟨rfl, List.map_congr_left fun e _ => ?_⟩
  cases e <;> rfl

section
variable {runner identityFile : String} (hr : '?' ∉ runner.toList) (hi : '&' ∉ identityFile.toList)

include hr hi

/-- Logging in changes nothing but the user and the login key of a hop. -/
theorem SshHop.canonical_authenticate {hop : SshHop} (haddress : Addressable hop.address)
    (hparams : ∀ key value, hop.params.get? key = some value →
      '=' ∉ key.toList ∧ '&' ∉ key.toList ∧ '&' ∉ value.toList) :
    (hop.authenticate runner identityFile).Canonical where
  address := haddress.separators
  port := haddress.port
  user u hu := by
    cases hu
    exact hr
  params key value h := by
    unfold authenticate at h
    rcases SortedMap.get?_insert_eq_some.1 h with ⟨rfl, rfl⟩ | ⟨-, h⟩
    · exact ⟨by decide, by decide, hi⟩
    · exact hparams key value h

theorem Endpoint.canonical_enter {e : Endpoint} (h : e.Canonical) :
    (e.enter runner identityFile).Canonical := by
  cases e with
  | ssh hop => exact SshHop.canonical_authenticate hr hi ⟨h.address, h.port⟩ h.params
  | listen | tcp | unix | proxy => exact h

/-- All that can keep an entrance from being read back is its address. -/
theorem Entrance.canonical_enter_iff {d : Entrance} (hd : '&' ∉ d.hub.toList) :
    (d.endpoint.enter runner identityFile).Canonical ↔ SshHop.Addressable d.address := by
  constructor
  · intro h
    exact ⟨h.address, h.port⟩
  · intro h
    refine SshHop.canonical_authenticate hr hi h fun key value hp => ?_
    unfold SshHop.toHub at hp
    rcases SortedMap.get?_insert_eq_some.1 hp with ⟨rfl, rfl⟩ | ⟨-, hp⟩
    · exact ⟨by decide, by decide, hd⟩
    · cases hp

end

end HubFederation
