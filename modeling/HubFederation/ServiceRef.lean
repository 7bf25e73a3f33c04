import HubFederation.Port

/-!
# Services

A service is named within a hub by its namespace and its name.
-/
namespace HubFederation

structure ServiceRef where
  ns : String
  name : String
  deriving DecidableEq, Repr

namespace ServiceRef

/-- The host name of a service inside its cluster. -/
def host (s : ServiceRef) : String := s.name ++ "." ++ s.ns ++ ".svc"

/-- The host name and one port.
mirrors `ServiceRef.authority` -/
def authority (s : ServiceRef) (port : Port) : String := s.host ++ ":" ++ port.text

end ServiceRef

end HubFederation
