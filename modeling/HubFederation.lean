import HubFederation.AllowList
import HubFederation.ApiRequest
import HubFederation.Chain.Basic
import HubFederation.Chain.Bound
import HubFederation.Chain.Merge
import HubFederation.Condition
import HubFederation.ConfigMap
import HubFederation.Counters
import HubFederation.Debounce.Basic
import HubFederation.Debounce.Timeline
import HubFederation.Endpoint
import HubFederation.Federation.Basic
import HubFederation.Federation.Task
import HubFederation.Fleet
import HubFederation.Gateway
import HubFederation.HubSpec
import HubFederation.Json.Basic
import HubFederation.Json.Reader
import HubFederation.Json.Record
import HubFederation.Json.Shape
import HubFederation.Labels
import HubFederation.Main
import HubFederation.Mapping.Basic
import HubFederation.Mapping.Sync
import HubFederation.Metadata
import HubFederation.Options.Basic
import HubFederation.Options.Reader
import HubFederation.Port
import HubFederation.PortList
import HubFederation.PortPool
import HubFederation.PortPools
import HubFederation.Proofs.AllowList.Merging
import HubFederation.Proofs.Chain.Blocks
import HubFederation.Proofs.Chain.Entrances
import HubFederation.Proofs.Chain.Grants
import HubFederation.Proofs.Chain.Irreducible
import HubFederation.Proofs.Chain.Joints
import HubFederation.Proofs.Chain.Merged
import HubFederation.Proofs.Chain.Obstacles
import HubFederation.Proofs.Chain.Passes
import HubFederation.Proofs.Chain.Rules
import HubFederation.Proofs.Chain.Runs
import HubFederation.Proofs.Chain.Symmetry
import HubFederation.Proofs.Chain.Written
import HubFederation.Proofs.Debounce.Coverage
import HubFederation.Proofs.Debounce.Moves
import HubFederation.Proofs.Debounce.Steps
import HubFederation.Proofs.Debounce.Timed
import HubFederation.Proofs.Endpoint.RoundTrip
import HubFederation.Proofs.Federation.Grouped
import HubFederation.Proofs.Federation.Jobs
import HubFederation.Proofs.Federation.Leaks
import HubFederation.Proofs.Federation.Lineage
import HubFederation.Proofs.Federation.Moves
import HubFederation.Proofs.Federation.Ordinary
import HubFederation.Proofs.Federation.Orderly
import HubFederation.Proofs.Federation.Succession
import HubFederation.Proofs.Isolation.Duo
import HubFederation.Proofs.Isolation.Keys
import HubFederation.Proofs.Isolation.Ledger
import HubFederation.Proofs.Json.RoundTrip
import HubFederation.Proofs.Lookup
import HubFederation.Proofs.Mapping.Binds
import HubFederation.Proofs.Mapping.Blocked
import HubFederation.Proofs.Mapping.Drifting
import HubFederation.Proofs.Mapping.Mirror
import HubFederation.Proofs.Mapping.Path
import HubFederation.Proofs.Mapping.Phases
import HubFederation.Proofs.Mapping.Reading
import HubFederation.Proofs.Mapping.Recall
import HubFederation.Proofs.Mapping.Replay
import HubFederation.Proofs.Mapping.Reports
import HubFederation.Proofs.Mapping.Restart
import HubFederation.Proofs.Mapping.Retry
import HubFederation.Proofs.Mapping.Seeding
import HubFederation.Proofs.Mapping.Steps
import HubFederation.Proofs.Mapping.Synced
import HubFederation.Proofs.Mapping.Writes
import HubFederation.Proofs.Ports.Binding
import HubFederation.Proofs.Ports.Capacity
import HubFederation.Proofs.Ports.Moves
import HubFederation.Proofs.Ports.Probing
import HubFederation.Proofs.Ports.Restored
import HubFederation.Proofs.Registry.Inits
import HubFederation.Proofs.Registry.Moves
import HubFederation.Proofs.Registry.Relisting
import HubFederation.Proofs.Registry.Sources
import HubFederation.Proofs.Render.Announced
import HubFederation.Proofs.Render.Names
import HubFederation.Proofs.Render.Owned
import HubFederation.Proofs.Render.Published
import HubFederation.Proofs.Render.Together
import HubFederation.Proofs.Resources.Diff
import HubFederation.Proofs.Routes.Bound
import HubFederation.Proofs.Routes.Records
import HubFederation.Proofs.Routes.Stable
import HubFederation.Proofs.Routes.Tidy
import HubFederation.Proofs.Status.Adoption
import HubFederation.Proofs.Status.Agreement
import HubFederation.Proofs.Status.Desk
import HubFederation.Proofs.Status.History
import HubFederation.Proofs.Status.MergePatch
import HubFederation.Proofs.Status.Verdicts
import HubFederation.Proofs.Status.Written
import HubFederation.Proofs.Time.RoundTrip
import HubFederation.Proofs.Way.Hints
import HubFederation.Proofs.Way.Loops
import HubFederation.Proofs.Way.Rounds
import HubFederation.Recovery
import HubFederation.Registry.Basic
import HubFederation.Registry.Initializer
import HubFederation.Registry.Request
import HubFederation.Render
import HubFederation.Resources
import HubFederation.Route
import HubFederation.RouteId
import HubFederation.RouteIndex
import HubFederation.RouteSpec
import HubFederation.Service
import HubFederation.ServiceRef
import HubFederation.SortedMap
import HubFederation.Status.Board
import HubFederation.Status.Finding
import HubFederation.Status.Outbox
import HubFederation.Status.Patcher
import HubFederation.Status.RouteStatus
import HubFederation.Text.Base64
import HubFederation.Text.Blank
import HubFederation.Text.Case
import HubFederation.Text.Cut
import HubFederation.Text.Decimal
import HubFederation.Text.Form
import HubFederation.Text.Lowercase
import HubFederation.Text.Quoted
import HubFederation.Text.Ranges
import HubFederation.Text.Unshown
import HubFederation.Timestamp
import HubFederation.TunnelPort
import HubFederation.Way
import HubFederation.World
