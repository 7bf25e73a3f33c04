import HubFederation.ConfigMap
import HubFederation.Json.Reader
import HubFederation.PortList
import HubFederation.Service
import HubFederation.TunnelPort

/-!
# Recovering bind ports

Which bind port belongs to which exported port can be read back from what earlier
runs left on an importing hub: Services that carry the exported service and its ports
as labels, and `service` ConfigMaps that record each bind port as a target port.
-/
namespace HubFederation.Recovery

/-- Exported ports with their bind ports.
mirrors `ports.Peers` -/
abbrev Bindings := List (ExportedPort × Port)

/-- The first Service port that publishes `port`: its name ends in a dash and the number. -/
def publisher? (ports : List ServicePort) (port : Port) : Option ServicePort :=
  ports.find? fun p => match p.name with
    | some name => ('-' :: port.chars).isSuffixOf name.toList
    | none => false

/-- Where a Service port sends traffic, unless that is only a name. -/
def targetNumber (p : ServicePort) : Int :=
  match p.target with
  | some (.number n) => n
  | _ => p.port

/-- The bindings of a Service. A port that it does not publish is skipped. -/
def bindings (hub ns name : String) (published : List ServicePort) :
    List Port → Except PortError Bindings
  | [] => .ok []
  | port :: rest =>
    match publisher? published port with
    | none => bindings hub ns name published rest
    | some p =>
      match Port.ofInt? (targetNumber p) with
      | none => .error (.invalidPort (Text.signedDecimal (targetNumber p)))
      | some bind => (bindings hub ns name published rest).map ((⟨hub, ns, name, port⟩, bind) :: ·)

/-- The bindings that a Service publishes; none if it is not labeled as a tunnel's.
mirrors `ports.from_service` -/
def ofService (s : Service) : Except PortError Bindings :=
  let labels := s.metadata.labelSet
  match labels.get? Labels.exportedFrom, labels.get? Labels.exportedFromNamespace,
    labels.get? Labels.exportedFromName, labels.get? Labels.exportedFromPorts with
  | some hub, some ns, some name, some ports => do
    bindings hub ns name s.ports (← Port.listOfText ports)
  | _, _, _, _ => .ok []

/-- The bindings that a `service` ConfigMap records.
mirrors `ports.from_config_map` -/
def ofConfigMap (cm : ConfigMap) : Except PortError Bindings :=
  if cm.kind? ≠ some .service then .ok []
  else match cm.labelSet.get? Labels.exportedFrom, cm.get? DataKey.exportServiceNamespace,
      cm.get? DataKey.exportServiceName, cm.get? DataKey.ports with
  | some hub, some ns, some name, some text =>
    match (Json.parse? text).bind (Json.list? TunnelPort.ofJson?) with
    | some ports => .ok (ports.map fun p => (⟨hub, ns, name, p.port⟩, p.targetPort))
    | none => .error (.invalidPort text)
  | _, _, _, _ => .ok []

end HubFederation.Recovery
