import HubFederation.Render

/-!
# What a ConfigMap is for

The name of a rendered ConfigMap tells what it is for: the tunnel of a route, the service
of a route, or the key of a peer. Names are cut at their last dashes, so that whatever a
route or a hub is called, no two purposes share a name.

* `ofName?_name`: a name is read back as what it was made for.
* `name_injective`: two purposes never have one name.
-/
namespace HubFederation

/-- What a rendered ConfigMap is for. -/
inductive Purpose where
  /-- The chains of a tunnel. -/
  | rules (route : String) (exportPort bindPort : Port)
  /-- The grants of a tunnel. -/
  | allows (route : String) (exportPort bindPort : Port)
  /-- The key that a peer logs in with. -/
  | key (peer : String)
  /-- The service that a route publishes. -/
  | service (route : String)
  deriving DecidableEq

namespace Purpose

def name : Purpose → String
  | rules route e b => route ++ "-tunnel-" ++ (e.text ++ "-" ++ b.text)
  | allows route e b => route ++ "-allows-" ++ (e.text ++ "-" ++ b.text)
  | key peer => peer ++ "-authorized"
  | service route => route ++ "-service"

/-- The route, unless the key of a peer is all there is. -/
def route? : Purpose → Option String
  | rules route _ _ | allows route _ _ | service route => some route
  | key _ => none

/-- The tunnel ConfigMap of a kind. -/
def ofTunnel? (kind : List Char) (route : String) (e b : Port) : Option Purpose :=
  if kind = ['t', 'u', 'n', 'n', 'e', 'l'] then some (rules route e b)
  else if kind = ['a', 'l', 'l', 'o', 'w', 's'] then some (allows route e b)
  else none

/-- What a name is for. -/
def ofName? (name : List Char) : Option Purpose := do
  let (front, last) ← Text.cutLast '-' name
  if last = ['a', 'u', 't', 'h', 'o', 'r', 'i', 'z', 'e', 'd'] then
    return key (String.ofList front)
  if last = ['s', 'e', 'r', 'v', 'i', 'c', 'e'] then
    return service (String.ofList front)
  let (front, exportPort) ← Text.cutLast '-' front
  let (route, kind) ← Text.cutLast '-' front
  ofTunnel? kind (String.ofList route) (← Port.ofChars? exportPort) (← Port.ofChars? last)

theorem not_digit_of_readable {p : Port} {c : Char} {cs : List Char}
    (hc : (Text.digitValue? c).isSome = false) : p.chars ≠ c :: cs := by
  intro h
  have := Text.digitValue?_of_mem_digits (n := p.toNat) (c := c) (by
    change c ∈ p.chars
    rw [h]; exact List.mem_cons_self ..)
  rw [hc] at this
  cases this

theorem ofName?_tunnel (kind : List Char) (hk : '-' ∉ kind) (route : String) (e b : Port) :
    ofName? (route.toList ++ '-' :: kind ++ '-' :: e.chars ++ '-' :: b.chars) =
      ofTunnel? kind route e b := by
  have hb : '-' ∉ b.chars := fun h => Port.ne_dash_of_mem_chars h rfl
  have he : '-' ∉ e.chars := fun h => Port.ne_dash_of_mem_chars h rfl
  unfold ofName?
  rw [Text.cutLast_append hb]
  simp only [Option.bind_eq_bind, Option.bind_some]
  rw [if_neg (not_digit_of_readable rfl), if_neg (not_digit_of_readable rfl),
    Text.cutLast_append he]
  simp only [Option.bind_some]
  rw [Text.cutLast_append hk]
  simp [Port.ofChars?_chars]

/-- A name is read back as what it was made for. -/
theorem ofName?_name (p : Purpose) : ofName? p.name.toList = some p := by
  cases p with
  | rules route e b =>
    have h := ofName?_tunnel ['t', 'u', 'n', 'n', 'e', 'l'] (by decide) route e b
    simpa [name, Port.text, ofTunnel?] using h
  | allows route e b =>
    have h := ofName?_tunnel ['a', 'l', 'l', 'o', 'w', 's'] (by decide) route e b
    simpa [name, Port.text, ofTunnel?] using h
  | key peer =>
    have hl : (key peer).name.toList =
        peer.toList ++ '-' :: ['a', 'u', 't', 'h', 'o', 'r', 'i', 'z', 'e', 'd'] := by
      simp [name]
    rw [hl, ofName?, Text.cutLast_append (by decide)]
    simp
  | service route =>
    have hl : (service route).name.toList =
        route.toList ++ '-' :: ['s', 'e', 'r', 'v', 'i', 'c', 'e'] := by
      simp [name]
    rw [hl, ofName?, Text.cutLast_append (by decide)]
    simp

/-- Two purposes never have one name. -/
theorem name_injective {p q : Purpose} (h : p.name = q.name) : p = q := by
  have := ofName?_name p
  rw [h, ofName?_name] at this
  exact (Option.some.inj this).symm

end Purpose

end HubFederation
