import HubFederation.Options.Reader

/-!
# The command line program

Reads the command line and prints the settings that it stands for, as JSON.
-/
namespace HubFederation

/-- The variable of the environment that names the namespace. -/
def namespaceVariable : String := "FERRY_CONTROLLER_NAMESPACE"

/-- The exit status after a command line that is refused. -/
def usageStatus : UInt32 := 2

end HubFederation

open HubFederation in
def main (words : List String) : IO UInt32 := do
  match Settings.ofWords (← IO.getEnv namespaceVariable) words with
  | .ok settings =>
    IO.println settings.toJson.compact
    return 0
  | .error e =>
    IO.eprintln ("error: " ++ e.message)
    return usageStatus
