import HubFederation.Json.Record
import HubFederation.Port

/-!
# The data of tunnel ConfigMaps

The keys under which a tunnel finds its data, and the ports that it publishes.
-/
namespace HubFederation

namespace DataKey

/-- The chains that a hub runs, as a JSON list. -/
def rules : String := "rules"
/-- What a hub grants each peer, as a JSON map. -/
def allows : String := "allows"
def authorizedKeys : String := "authorized_keys"
def user : String := "user"
def exportHubName : String := "export_hub_name"
def exportServiceNamespace : String := "export_service_namespace"
def exportServiceName : String := "export_service_name"
def importServiceNamespace : String := "import_service_namespace"
def importServiceName : String := "import_service_name"
/-- The published ports, as a JSON list. -/
def ports : String := "ports"

end DataKey

/-- A port that a tunnel publishes on the importing hub.
mirrors `tunnel.ServicePort` -/
structure TunnelPort where
  name : String
  protocol : String
  port : Port
  /-- The bind port that the tunnel listens on. -/
  targetPort : Port
  deriving DecidableEq, Repr

namespace TunnelPort

def toJson (p : TunnelPort) : Json :=
  .obj [("name", .str p.name), ("protocol", .str p.protocol), ("port", .ofNat p.port.toNat),
    ("targetPort", .ofNat p.targetPort.toNat)]

def ofJson? (j : Json) : Option TunnelPort := do
  let r ← Json.Record.ofJson? ["name", "protocol", "port", "targetPort"] j
  return ⟨← r.required "name" Json.string?, ← r.required "protocol" Json.string?,
    ← r.required "port" Json.uint16?, ← r.required "targetPort" Json.uint16?⟩

def listToJson (ps : List TunnelPort) : Json := .arr (ps.map toJson)

end TunnelPort

end HubFederation
