import HubFederation.Port
import HubFederation.Text.Quoted

/-!
# Bind ports

Every importing hub has a pool of ports and binds one of them to each exported
service port that it publishes. Ports are handed out in a circle: the cursor
stands behind the port handed out last, and a port that is given back is only met
again when the cursor has come round.

Who has which port is looked up from both sides, so a `PortTable` is two maps. They
are kept in step by what is done to them, not by how they are made.

* `PortPool.get` binds the next free port, `PortPool.register` a given one.
* `portOf?_rebind`, `portOf?_release`: what a peer's port is then.
* `peerOf?_rebind`, `peerOf?_release`: whose a port is then.
-/
namespace HubFederation

/-- A port of a service that a hub exports.
mirrors `PortPeer` -/
structure ExportedPort where
  hub : String
  ns : String
  name : String
  port : Port
  deriving DecidableEq, Repr

namespace ExportedPort

instance : Key ExportedPort :=
  Key.lift (fun p => (p.hub, p.ns, p.name, p.port)) fun {a b} h => by
    cases a; cases b; simp_all

def describe (p : ExportedPort) : String :=
  "PortPeer \x7b export_hub: " ++ Text.quoted p.hub ++ ", namespace: " ++ Text.quoted p.ns ++
    ", name: " ++ Text.quoted p.name ++ ", port: " ++ p.port.text ++ " \x7d"

end ExportedPort

/-- Why a port cannot be bound or read. -/
inductive PortError where
  | exhausted (start stop : Port)
  | invalidPort (text : String)
  | conflict (port : Port) (owner : ExportedPort)
  deriving DecidableEq, Repr

/-- mirrors the display of `PortError` -/
def PortError.message : PortError → String
  | .exhausted start stop => "no free port left in " ++ start.text ++ ".." ++ stop.text
  | .invalidPort text => "invalid port " ++ Text.quoted text
  | .conflict port owner => "port " ++ port.text ++ " is already bound to " ++ owner.describe

/-- The port of each peer, and the peer of each port.
mirrors the maps `port_to_peer` and `peer_to_port` of `PortAllocator` -/
structure PortTable where
  ports : SortedMap ExportedPort Port
  peers : SortedMap Port ExportedPort
  deriving DecidableEq

namespace PortTable

def empty : PortTable := ⟨∅, ∅⟩

instance : EmptyCollection PortTable := ⟨empty⟩
instance : Inhabited PortTable := ⟨empty⟩

/-- Enters a port and its peer on both sides.
mirrors `PortAllocator.bind` -/
def bind (t : PortTable) (peer : ExportedPort) (port : Port) : PortTable :=
  ⟨t.ports.insert peer port, t.peers.insert port peer⟩

/-- Forgets whose a port is. -/
def vacate (t : PortTable) (port : Port) : PortTable := { t with peers := t.peers.erase port }

/-- Binds a port to a peer, which gives up the port it had.
mirrors the rebinding in `PortAllocator.register` -/
def rebind (t : PortTable) (peer : ExportedPort) (port : Port) : PortTable :=
  match t.ports.get? peer with
  | some old => (t.vacate old).bind peer port
  | none => t.bind peer port

/-- Gives the port of a peer back.
mirrors `PortAllocator.delete` -/
def release (t : PortTable) (peer : ExportedPort) : PortTable :=
  match t.ports.get? peer with
  | some port => ⟨t.ports.erase peer, t.peers.erase port⟩
  | none => t

theorem ports_rebind (t : PortTable) (peer : ExportedPort) (port : Port) :
    (t.rebind peer port).ports = t.ports.insert peer port := by
  unfold rebind
  split <;> rfl

theorem get?_peers_rebind (t : PortTable) (peer : ExportedPort) (port port' : Port) :
    (t.rebind peer port).peers.get? port' =
      if port' = port then some peer
      else if t.ports.get? peer = some port' then none else t.peers.get? port' := by
  unfold rebind
  split
  next old hold =>
    change ((t.peers.erase old).insert port peer).get? port' = _
    rw [hold, SortedMap.get?_insert_ite, SortedMap.get?_erase_ite]
    grind
  next hnone =>
    change (t.peers.insert port peer).get? port' = _
    rw [hnone, SortedMap.get?_insert_ite]
    simp

theorem get?_ports_release (t : PortTable) (peer peer' : ExportedPort) :
    (t.release peer).ports.get? peer' = if peer' = peer then none else t.ports.get? peer' := by
  unfold release
  split
  · exact SortedMap.get?_erase_ite ..
  next hnone =>
    split
    next he => rw [he, hnone]
    · rfl

theorem get?_peers_release (t : PortTable) (peer : ExportedPort) (port : Port) :
    (t.release peer).peers.get? port =
      if t.ports.get? peer = some port then none else t.peers.get? port := by
  unfold release
  split
  next old hold =>
    change (t.peers.erase old).get? port = _
    rw [hold, SortedMap.get?_erase_ite]
    grind
  next hnone =>
    rw [hnone]
    simp

end PortTable

/-- The ports from `start` up to, but not including, `stop`.
mirrors `PortAllocator` -/
structure PortPool where
  start : Port
  stop : Port
  /-- Where the search for a free port begins. -/
  cursor : Port
  /-- Who has which port. -/
  bound : PortTable
  deriving DecidableEq

namespace PortPool

def defaultStart : Port := 40000

def defaultCount : Port := 10000

/-- A pool of `count` ports, or as many as there are below 65535.
mirrors `PortAllocator.new` -/
def ofCount (start count : Port) : PortPool :=
  ⟨start, UInt16.ofNat (min 65535 (start.toNat + count.toNat)), start, ∅⟩

instance : Inhabited PortPool := ⟨ofCount defaultStart defaultCount⟩

/-- mirrors `PortAllocator.len` -/
def size (p : PortPool) : Nat := p.bound.ports.size

/-- mirrors `PortAllocator.is_empty` -/
def isEmpty (p : PortPool) : Bool := p.bound.ports.isEmpty

/-- The number of ports that the pool hands out. -/
def capacity (p : PortPool) : Nat := p.stop.toNat - p.start.toNat

/-- Whether the pool hands out `port`. -/
def holds (p : PortPool) (port : Port) : Bool := p.start ≤ port && port < p.stop

/-- The port bound to an exported port.
mirrors `PortAllocator.lookup` -/
def portOf? (p : PortPool) (peer : ExportedPort) : Option Port := p.bound.ports.get? peer

/-- The exported port that a port is bound to. -/
def peerOf? (p : PortPool) (port : Port) : Option ExportedPort := p.bound.peers.get? port

/-- The port after `port`, the first one after the last.
mirrors `PortAllocator.next` -/
def next (p : PortPool) (port : Port) : Port :=
  if p.stop.toNat ≤ min 65535 (port.toNat + 1) then p.start else port + 1

/-- Binds `port` to `peer`.
mirrors `PortAllocator.bind` -/
def bind (p : PortPool) (peer : ExportedPort) (port : Port) : PortPool :=
  { p with bound := p.bound.bind peer port }

/-- Binds `port` to `peer`, which gives up the port it had.
mirrors the rebinding in `PortAllocator.register` -/
def rebind (p : PortPool) (peer : ExportedPort) (port : Port) : PortPool :=
  { p with bound := p.bound.rebind peer port }

/-- The first port that is not bound among the `n` ports from `port` on.
mirrors the loop of `PortAllocator.get` -/
def firstFree (p : PortPool) : Nat → Port → Option Port
  | 0, _ => none
  | n + 1, port => if (p.peerOf? port).isNone then some port else firstFree p n (p.next port)

/-- The port of `peer`. A peer without one is bound to the next free port.
mirrors `PortAllocator.get` -/
def get (p : PortPool) (peer : ExportedPort) : Except PortError (Port × PortPool) :=
  match p.portOf? peer with
  | some port => .ok (port, p)
  | none =>
    match p.firstFree p.capacity p.cursor with
    | some port => .ok (port, { p.bind peer port with cursor := p.next port })
    | none => .error (.exhausted p.start p.stop)

/-- Gives the port of `peer` back. The cursor stays where it is.
mirrors `PortAllocator.delete` -/
def release (p : PortPool) (peer : ExportedPort) : PortPool :=
  { p with bound := p.bound.release peer }

/-- Binds a port that is known to be in use, and moves the cursor behind it.
mirrors `PortAllocator.register` -/
def register (p : PortPool) (peer : ExportedPort) (port : Port) : Except PortError PortPool :=
  match p.peerOf? port with
  | some owner => if owner = peer then .ok p else .error (.conflict port owner)
  | none =>
    let cursor := if p.holds port && p.cursor ≤ port then p.next port else p.cursor
    .ok { p.rebind peer port with cursor }

/-- Registers bindings in order, up to the first conflict.
mirrors `PortAllocator.load` -/
def load (p : PortPool) : List (ExportedPort × Port) → PortPool × Except PortError Unit
  | [] => (p, .ok ())
  | (peer, port) :: rest =>
    match p.register peer port with
    | .ok p => load p rest
    | .error e => (p, .error e)

theorem portOf?_rebind (p : PortPool) (peer peer' : ExportedPort) (port : Port) :
    (p.rebind peer port).portOf? peer' = if peer' = peer then some port else p.portOf? peer' := by
  unfold rebind portOf?
  rw [PortTable.ports_rebind]
  exact SortedMap.get?_insert_ite ..

theorem peerOf?_rebind (p : PortPool) (peer : ExportedPort) (port port' : Port) :
    (p.rebind peer port).peerOf? port' =
      if port' = port then some peer
      else if p.portOf? peer = some port' then none else p.peerOf? port' :=
  p.bound.get?_peers_rebind peer port port'

theorem portOf?_release (p : PortPool) (peer peer' : ExportedPort) :
    (p.release peer).portOf? peer' = if peer' = peer then none else p.portOf? peer' :=
  p.bound.get?_ports_release peer peer'

theorem peerOf?_release (p : PortPool) (peer : ExportedPort) (port : Port) :
    (p.release peer).peerOf? port = if p.portOf? peer = some port then none else p.peerOf? port :=
  p.bound.get?_peers_release peer port

end PortPool

end HubFederation
