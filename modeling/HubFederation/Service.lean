import HubFederation.Condition
import HubFederation.Metadata
import HubFederation.PortPool
import HubFederation.ServiceRef

/-!
# Services of a hub

The ports of a Service as its hub announces them. Numbers that are no ports are
kept here; who uses a Service skips them. The rest of a Service has to be well-formed,
and is then set aside.

* `Service.exports` lists the ports that a hub exports.
-/
namespace HubFederation

/-- Where a Service sends what arrives at a port. -/
inductive TargetPort where
  | number (n : Int)
  | name (s : String)
  deriving DecidableEq, Repr

structure ServicePort where
  name : Option String
  protocol : Option String
  port : Int
  target : Option TargetPort
  deriving DecidableEq, Repr

structure Service where
  metadata : Metadata
  ports : List ServicePort
  deriving DecidableEq

namespace ServicePort

/-- The protocol, TCP unless another one is named, and the port number, unless it is
zero or out of range.
mirrors one port of `mapping.service_ports` -/
def usable? (p : ServicePort) : Option (String × Port) :=
  match Port.ofInt? p.port with
  | some port => if port = 0 then none else some (p.protocol.getD "TCP", port)
  | none => none

end ServicePort

namespace Service

/-- What a Service is known by within its hub.
mirrors `registry.service_id` -/
def id (s : Service) : String × String := (s.metadata.ns.getD "", s.metadata.name.getD "")

/-- The protocol and number of each port that can be exported.
mirrors `mapping.service_ports` -/
def usablePorts (s : Service) : List (String × Port) := s.ports.filterMap (·.usable?)

/-- The ports that `hub` exports by way of the service.
mirrors `route.service_peers` -/
def exportedPorts (s : Service) (hub : String) (ref : ServiceRef) : List ExportedPort :=
  s.usablePorts.map fun (_, port) => ⟨hub, ref.ns, ref.name, port⟩

/-! ## JSON -/

/-- What is not kept of a port. -/
def portShape : Json.Shape := .object [("appProtocol", .text), ("nodePort", .int32)]

/-- How long a client stays with the same endpoint. -/
def affinityShape : Json.Shape := .object [("clientIP", .object [("timeoutSeconds", .int32)])]

/-- What is not kept of a specification. -/
def specShape : Json.Shape := .object [("allocateLoadBalancerNodePorts", .flag),
  ("clusterIP", .text), ("clusterIPs", .texts), ("externalIPs", .texts), ("externalName", .text),
  ("externalTrafficPolicy", .text), ("healthCheckNodePort", .int32),
  ("internalTrafficPolicy", .text), ("ipFamilies", .texts), ("ipFamilyPolicy", .text),
  ("loadBalancerClass", .text), ("loadBalancerIP", .text), ("loadBalancerSourceRanges", .texts),
  ("publishNotReadyAddresses", .flag), ("selector", .map .text), ("sessionAffinity", .text),
  ("sessionAffinityConfig", affinityShape), ("trafficDistribution", .text), ("type", .text)]

/-- A point at which a load balancer takes traffic in. -/
def ingressShape : Json.Shape := .object [("hostname", .text), ("ip", .text), ("ipMode", .text),
  ("ports", .list (.object [("error", .text), ("port", .int32), ("protocol", .text)]))]

/-- What a cluster says of a Service. -/
def statusShape : Json.Shape := .object [("conditions", .list (.of Condition.ofJson?)),
  ("loadBalancer", .object [("ingress", .list ingressShape)])]

def targetOfJson? (j : Json) : Option TargetPort :=
  j.int32?.map TargetPort.number <|> j.string?.map TargetPort.name

def portOfJson? (j : Json) : Option ServicePort := do
  guard (portShape j)
  let r ← Json.Record.ofObject? ["name", "protocol", "port", "targetPort"] j
  return {
    name := ← r.optional "name" Json.string?
    protocol := ← r.optional "protocol" Json.string?
    port := (← r.optional "port" Json.int32?).getD 0
    target := ← r.optional "targetPort" targetOfJson? }

def specOfJson? (j : Json) : Option (List ServicePort) := do
  guard (specShape j)
  let r ← Json.Record.ofObject? ["ports"] j
  return (← r.optional "ports" (Json.list? portOfJson?)).getD []

def ofJson? (j : Json) : Option Service := do
  guard (Json.Shape.object [("status", statusShape)] j)
  let r ← Json.Record.ofObject? ["apiVersion", "kind", "metadata", "spec"] j
  return ⟨← Metadata.ofObject? "Service" r, (← r.optional "spec" specOfJson?).getD []⟩

end Service

end HubFederation
