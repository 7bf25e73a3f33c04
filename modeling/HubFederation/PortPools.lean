import HubFederation.PortPool

/-!
# Pools of all importing hubs

Each importing hub has a pool of its own, made when it is first needed.

* `pool_setPool_self`, `pool_setPool_of_ne`: changing the pool of a hub changes no other pool.
-/
namespace HubFederation

/-- mirrors the field `allocators` of `Registry` -/
structure PortPools where
  /-- The pool of a hub that does not have one yet. -/
  fresh : PortPool
  pools : SortedMap String PortPool
  deriving DecidableEq

namespace PortPools

def ofPool (fresh : PortPool) : PortPools := ⟨fresh, ∅⟩

/-- mirrors `Registry.allocator` -/
def pool (ps : PortPools) (hub : String) : PortPool := ps.pools.getD hub ps.fresh

def setPool (ps : PortPools) (hub : String) (p : PortPool) : PortPools :=
  { ps with pools := ps.pools.insert hub p }

def portOf? (ps : PortPools) (hub : String) (peer : ExportedPort) : Option Port :=
  (ps.pool hub).portOf? peer

/-- The port of `peer` on a hub, bound now if it was not.
mirrors `Hubs.get_port_peer` -/
def get (ps : PortPools) (hub : String) (peer : ExportedPort) :
    Except PortError (Port × PortPools) :=
  ((ps.pool hub).get peer).map fun (port, p) => (port, ps.setPool hub p)

def register (ps : PortPools) (hub : String) (peer : ExportedPort) (port : Port) :
    Except PortError PortPools :=
  ((ps.pool hub).register peer port).map (ps.setPool hub)

/-- mirrors `Hubs.load_port_peer` -/
def load (ps : PortPools) (hub : String) (bindings : List (ExportedPort × Port)) :
    PortPools × Except PortError Unit :=
  let (p, result) := (ps.pool hub).load bindings
  (ps.setPool hub p, result)

/-- mirrors `Hubs.delete_port_peer` -/
def release (ps : PortPools) (hub : String) (peer : ExportedPort) : PortPools :=
  ps.setPool hub ((ps.pool hub).release peer)

@[simp] theorem pool_setPool_self (ps : PortPools) (hub : String) (p : PortPool) :
    (ps.setPool hub p).pool hub = p := by
  simp [setPool, pool, SortedMap.getD]

theorem pool_setPool_of_ne (ps : PortPools) {hub hub' : String} (p : PortPool) (h : hub' ≠ hub) :
    (ps.setPool hub p).pool hub' = ps.pool hub' := by
  simp [setPool, pool, SortedMap.getD, SortedMap.get?_insert_of_ne _ _ h]

end PortPools

end HubFederation
