import HubFederation.ApiRequest
import HubFederation.Registry.Basic

/-!
# Calls to a hub

What is asked of the API server of a hub, and what its answer means. A hub that rejects
its credentials has its client built anew.

* `Registry.call` makes a call about ConfigMaps on a hub that has a client.
-/
namespace HubFederation

/-- A call about the ConfigMaps in the tunnel namespace of a hub. -/
inductive ConfigMapCall where
  | list (selector : String)
  | apply (cm : ConfigMap)
  | delete (name : String)

namespace ConfigMapCall

def configMaps (ns : String) : String := ApiRequest.namespacePath ns ++ "/configmaps"

/-- The request that makes the call, if there can be one. -/
def request? (ns : String) : ConfigMapCall → Option ApiRequest
  | list selector => ApiRequest.list? ns "configmaps" selector
  | apply cm => ApiRequest.toNamed? "PATCH" (configMaps ns) cm.key ""
      [("force", "true"), ApiRequest.fieldManager]
  | delete name => ApiRequest.toNamed? "DELETE" (configMaps ns) name "" []

/-- What is said when the call fails. -/
def failure (hub : String) : ConfigMapCall → String
  | list _ => "listing ConfigMaps on hub " ++ hub
  | apply cm => "applying ConfigMap " ++ cm.key ++ " on hub " ++ hub
  | delete name => "deleting ConfigMap " ++ name ++ " on hub " ++ hub

/-- Whether an answer means that the call succeeded. What is not there is deleted. -/
def succeeds (status : Nat) : ConfigMapCall → Bool
  | delete _ => status = 200 || status = 404
  | _ => status = 200

end ConfigMapCall

namespace Registry

/-- What came of a call: the registry after it, the request if one was made, and the
error text if it failed. -/
structure CallResult where
  registry : Registry
  request : Option ApiRequest
  error : Option String

/-- Makes a call to a hub whose API server answers with `status`.
mirrors `Hubs.list_config_maps`, `Hubs.apply_config_map` and `Hubs.delete_config_map` on `Registry`,
with `registry.api_error` -/
def call (r : Registry) (name : String) (c : ConfigMapCall) (status : Nat) : CallResult :=
  if (r.hub name).client.isNone then ⟨r, none, some ("hub " ++ name ++ " is not ready")⟩
  else match c.request? r.info.tunnelNs with
    | none => ⟨r, none, some (c.failure name)⟩
    | some request =>
      if c.succeeds status then ⟨r, some request, none⟩
      else
        let r := if status = 401 then (r.reinit name).notify else r
        ⟨r, some request, some (c.failure name)⟩

end Registry

end HubFederation
