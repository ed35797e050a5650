import ServiceGovernance.AddressSet
import ServiceGovernance.Admission.Concurrency
import ServiceGovernance.Admission.Rate
import ServiceGovernance.Agent
import ServiceGovernance.Balance.Balancer
import ServiceGovernance.Balance.Mode
import ServiceGovernance.Balance.RoundRobin
import ServiceGovernance.Config.Apply
import ServiceGovernance.Config.Basic
import ServiceGovernance.Config.Document
import ServiceGovernance.Config.OfDocument
import ServiceGovernance.Config.OfText
import ServiceGovernance.Directory
import ServiceGovernance.Endpoint.Basic
import ServiceGovernance.Endpoint.Matching
import ServiceGovernance.Endpoint.Order
import ServiceGovernance.Endpoint.Wire
import ServiceGovernance.Fault
import ServiceGovernance.Main
import ServiceGovernance.Metrics
import ServiceGovernance.Pool
import ServiceGovernance.Proofs.Admission.Slots
import ServiceGovernance.Proofs.Admission.Windows
import ServiceGovernance.Proofs.Balance.Answering
import ServiceGovernance.Proofs.Balance.Bounds
import ServiceGovernance.Proofs.Balance.Draining
import ServiceGovernance.Proofs.Balance.Idling
import ServiceGovernance.Proofs.Balance.Mixing
import ServiceGovernance.Proofs.Balance.Picking
import ServiceGovernance.Proofs.Balance.Refreshing
import ServiceGovernance.Proofs.Balance.Sharing
import ServiceGovernance.Proofs.Balance.Sticking
import ServiceGovernance.Proofs.Balance.Turns
import ServiceGovernance.Proofs.Balance.Words
import ServiceGovernance.Proofs.Config.Applying
import ServiceGovernance.Proofs.Config.Publishing
import ServiceGovernance.Proofs.Config.RoundTrip
import ServiceGovernance.Proofs.Directory.Following
import ServiceGovernance.Proofs.Dispatch.Rounds
import ServiceGovernance.Proofs.Dispatch.Selection
import ServiceGovernance.Proofs.Dispatch.Throttling
import ServiceGovernance.Proofs.Endpoint.Canonical
import ServiceGovernance.Proofs.Endpoint.RoundTrip
import ServiceGovernance.Proofs.Pool.Evictions
import ServiceGovernance.Proofs.Pool.Leases
import ServiceGovernance.Proofs.Pool.Places
import ServiceGovernance.Proofs.Pool.Timers
import ServiceGovernance.Proofs.Registry.Deliveries
import ServiceGovernance.Proofs.Registry.Interfaces
import ServiceGovernance.Proofs.Registry.Listeners
import ServiceGovernance.Proofs.Registry.Notification
import ServiceGovernance.Proofs.Registry.Requests
import ServiceGovernance.Proofs.Routing.Chains
import ServiceGovernance.Proofs.Routing.Grammar
import ServiceGovernance.Proofs.Routing.Narrowing
import ServiceGovernance.Proofs.Routing.Wildcards
import ServiceGovernance.Proofs.SortedSets
import ServiceGovernance.Proofs.Store.Changes
import ServiceGovernance.Proofs.Store.Footprints
import ServiceGovernance.Proofs.Store.Hearing
import ServiceGovernance.Proofs.Store.Paths
import ServiceGovernance.Proofs.Store.Reporting
import ServiceGovernance.Proofs.Store.Requests
import ServiceGovernance.Proofs.Store.Scanning
import ServiceGovernance.Proofs.Synced.Acting
import ServiceGovernance.Proofs.Synced.Bookkeeping
import ServiceGovernance.Proofs.Synced.Courses
import ServiceGovernance.Proofs.Synced.Currency
import ServiceGovernance.Proofs.Synced.Departure
import ServiceGovernance.Proofs.Synced.Emptying
import ServiceGovernance.Proofs.Synced.Events
import ServiceGovernance.Proofs.Synced.Failback
import ServiceGovernance.Proofs.Synced.Fleet
import ServiceGovernance.Proofs.Synced.Layout
import ServiceGovernance.Proofs.Synced.Mirror
import ServiceGovernance.Proofs.Synced.Mirroring
import ServiceGovernance.Proofs.Synced.Naming
import ServiceGovernance.Proofs.Synced.Nodes
import ServiceGovernance.Proofs.Synced.Publication
import ServiceGovernance.Proofs.Synced.Reading
import ServiceGovernance.Proofs.Synced.Refreshing
import ServiceGovernance.Proofs.Synced.Registrations
import ServiceGovernance.Proofs.Synced.Settling
import ServiceGovernance.Proofs.Synced.Staleness
import ServiceGovernance.Proofs.Synced.Tenure
import ServiceGovernance.Proofs.Synced.Tree
import ServiceGovernance.Proofs.Synced.Upkeep
import ServiceGovernance.Proofs.Synced.WatchedFor
import ServiceGovernance.Proofs.Synced.Watches
import ServiceGovernance.Proofs.Synced.Watching
import ServiceGovernance.Proofs.Text.ByteOrder
import ServiceGovernance.Proofs.Text.Cutting
import ServiceGovernance.Proofs.Text.Numeral
import ServiceGovernance.Proofs.Text.Percent
import ServiceGovernance.Registry.Basic
import ServiceGovernance.Registry.Synced
import ServiceGovernance.Routing.Chain
import ServiceGovernance.Routing.Pattern
import ServiceGovernance.Routing.Rule
import ServiceGovernance.Session.Background
import ServiceGovernance.Session.Calls
import ServiceGovernance.Session.Command
import ServiceGovernance.Session.Limits
import ServiceGovernance.Session.Nodes
import ServiceGovernance.Session.Report
import ServiceGovernance.Session.Sites
import ServiceGovernance.Session.Turn
import ServiceGovernance.Session.World
import ServiceGovernance.SortedMap
import ServiceGovernance.Store.Basic
import ServiceGovernance.Store.Path
import ServiceGovernance.Text.Blank
import ServiceGovernance.Text.Cut
import ServiceGovernance.Text.Duration
import ServiceGovernance.Text.Numeral
import ServiceGovernance.Text.Percent
import ServiceGovernance.Text.Printable
import ServiceGovernance.Text.Quoted
import ServiceGovernance.Text.Utf8
import ServiceGovernance.Traffic
import ServiceGovernance.Yaml.Layout
import ServiceGovernance.Yaml.Reading
import ServiceGovernance.Yaml.Scalar
import ServiceGovernance.Yaml.Token
