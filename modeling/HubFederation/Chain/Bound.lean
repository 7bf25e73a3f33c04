import HubFederation.AllowList
import HubFederation.Chain.Merge

/-!
# What each hub runs and grants

Every SSH hop logs in as the hub that runs its chain, and the hub that it dials
has to grant what the chain asks for. The bounds of a tunnel hold both sides: the
chains that a hub runs (outbound), and what it grants each peer (inbound).

* `Chains.authorize` makes the bounds of chains.
* `Tunnel.bounds` makes them from a way.
-/
namespace HubFederation

/-- Everything that one hub needs for one tunnel. -/
structure Bound where
  outbound : List Chain
  /-- Grants by the peer that dials. -/
  inbound : SortedMap String AllowList
  deriving DecidableEq

namespace Bound

def empty : Bound := ⟨[], ∅⟩

/-- mirrors `Bound.is_empty` -/
def isEmpty (b : Bound) : Bool := b.outbound.isEmpty && b.inbound.isEmpty

end Bound

/-- Bounds by hub. -/
abbrev Bounds := SortedMap String Bound

/-- A target that `hub` has to allow the peer that dials it. -/
structure Grant where
  hub : String
  kind : RequestKind
  target : String
  deriving DecidableEq, Repr

/-- The two stacks of a chain.
mirrors `chain.Side` -/
inductive Side where
  | bind
  | proxy
  deriving DecidableEq, Repr

namespace Side

/-- The request for a local end on the far side of a hop: listening for a stack that
is bound, connecting for a stack that is dialed.
mirrors the first hop in `chain.authenticate` -/
def ask (side : Side) (last : Endpoint) : RequestKind × String :=
  match side, last with
  | proxy, .unix path => (.directStreamlocal, path)
  | proxy, e => (.directTcpip, e.text)
  | bind, .unix path => (.streamlocalForward, path)
  | bind, e => (.tcpipForward, e.text)

/-- The grants for the relays of a stack, `previous` being the endpoint before them.
mirrors the later hops in `chain.authenticate` -/
def relayGrants (previous : Endpoint) : List Endpoint → List Grant
  | [] => []
  | .ssh hop :: rest =>
    let grants := relayGrants (.ssh hop) rest
    match hop.targetHub, previous.address with
    | some hub, some address => ⟨hub, .directTcpip, address⟩ :: grants
    | _, _ => grants
  | e :: rest => relayGrants e rest

/-- What a stack asks of the hubs that it dials: its end of the first hop, and of each
further hop the address that the hop before it dials.
mirrors what `chain.authenticate` returns -/
def grants (side : Side) : List Endpoint → List Grant
  | last :: .ssh hop :: rest =>
    let further := relayGrants (.ssh hop) rest
    match hop.targetHub with
    | some hub =>
      let (kind, target) := side.ask last
      ⟨hub, kind, target⟩ :: further
    | none => further
  | _ :: e :: rest => relayGrants e rest
  | _ => []

end Side

namespace Chain

/-- A stack whose SSH hops, but for the local end, log in as `runner`.
mirrors what `chain.authenticate` writes to a stack -/
def authenticateStack (runner identityFile : String) : List Endpoint → List Endpoint
  | [] => []
  | last :: hops => last :: hops.map fun
    | .ssh hop => .ssh (hop.authenticate runner identityFile)
    | e => e

def authenticate (runner identityFile : String) (c : Chain) : Chain :=
  ⟨authenticateStack runner identityFile c.bind, authenticateStack runner identityFile c.proxy⟩

def grants (c : Chain) : List Grant := Side.proxy.grants c.proxy ++ Side.bind.grants c.bind

end Chain

namespace Bounds

/-- Has a hub grant `runner` one more target. -/
def addGrant (runner : String) (bs : Bounds) (g : Grant) : Bounds :=
  bs.alter g.hub fun present =>
    let b := present.getD .empty
    { b with inbound := b.inbound.alter runner fun present =>
        (present.getD ∅).merge (.allow g.kind g.target) }

/-- Has `runner` run one more chain. -/
def addOutbound (runner : String) (bs : Bounds) (c : Chain) : Bounds :=
  bs.alter runner fun present =>
    let b := present.getD .empty
    { b with outbound := b.outbound ++ [c] }

/-- Adds a chain that `runner` runs and everything that it asks of other hubs.
mirrors one chain of `chain.authorize` -/
def addChain (identityFile runner : String) (bs : Bounds) (c : Chain) : Bounds :=
  addOutbound runner (c.grants.foldl (addGrant runner) bs) (c.authenticate runner identityFile)

end Bounds

/-- The bounds of chains whose hops log in with `identityFile`.
mirrors `chain.authorize` -/
def Chains.authorize (cs : Chains) (identityFile : String) : Bounds :=
  cs.entries.foldl
    (fun bs (runner, own) => own.foldl (Bounds.addChain identityFile runner) bs) ∅

/-- The bounds of a tunnel along a way.
mirrors `chain.build` -/
def Tunnel.bounds (t : Tunnel) (gateway : Gateways) (way : List String) :
    Except ChainError Bounds :=
  (t.chains gateway way).map fun cs => (cs.merge way).authorize t.identityFile

end HubFederation
