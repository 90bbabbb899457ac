import ParkIt.Lib.RowLock.Schedule
import ParkIt.Sockets.Echo
import ParkIt.GateIn.Heard
import ParkIt.Setup.GateTest
import ParkIt.Ledger
import ParkIt.Recording
import ParkIt.Completion
import ParkIt.Services.Caching
import ParkIt.Idempotency
import ParkIt.Correlation
import ParkIt.Booth.Retry
import ParkIt.Booth.Timing
import ParkIt.MoneyTrail
import ParkIt.Pos
import ParkIt.Arms
import ParkIt.Gates
import ParkIt.Quotes
import ParkIt.Lifecycle
import ParkIt.Booth.Fidelity
import ParkIt.Booth.Encoding
import ParkIt.Booth.Corruption
import ParkIt.Settlement.Overlap
import ParkIt.Settlement.Naming
import ParkIt.Settlement.Isolation
import ParkIt.Settlement.Format
import ParkIt.Upload.Attempt
import ParkIt.Upload.Retries
import ParkIt.Upload.Verdicts
import ParkIt.Upload.Stranded
import ParkIt.Lib.Tasks
import ParkIt.GateIn.Timers
import ParkIt.Auth.Revocation
import ParkIt.Auth.Rotation
import ParkIt.Auth.Provenance
import ParkIt.Cleanup
import ParkIt.Workers.Booths
import ParkIt.Setup.Authority
import ParkIt.Nights
import ParkIt.Membership
import ParkIt.GateIn.Parser
import ParkIt.GateIn.Listener
import ParkIt.GateIn.Requests
import ParkIt.GateIn.Restarts
import ParkIt.GateIn.Circuit
import ParkIt.GateIn.Closing
import ParkIt.GateIn.Traffic
import ParkIt.GateIn.Answers
import ParkIt.GateIn.Presence
import ParkIt.GateIn.Departure
import ParkIt.GateIn.Framing
import ParkIt.GateIn.Announced
import ParkIt.GateIn.Subscription
import ParkIt.Replay
import ParkIt.Redelivery
import ParkIt.Drawer
import ParkIt.Entries.Stranded
import ParkIt.Printing.Delimiting
import ParkIt.Printing.Receipt
import ParkIt.GateIn.Codec
import ParkIt.GateIn.Fallback
import ParkIt.GateIn.Signals
import ParkIt.Printing.Counter
import ParkIt.Booth.Client
import ParkIt.Booth.Supervisor
import ParkIt.Booth.Config
import ParkIt.Bridge.Broadcast
import ParkIt.Bridge.Dedupe
import ParkIt.Bridge.Segments
import ParkIt.Sockets.Registry
import ParkIt.Snapshots.Evidence
import ParkIt.RateLimit.Bound
import ParkIt.RateLimit.Memory
import ParkIt.RateLimit.Retry
import ParkIt.RateLimit.Dispatch
import ParkIt.Services.Shifts
import ParkIt.Workers.Automaton
import ParkIt.GateConfig.Editing
import ParkIt.Sockets.Routing
import ParkIt.Retention
import ParkIt.Frontend.Screen
import ParkIt.Frontend.OneSocket
import ParkIt.Finding
import ParkIt.Migration.References
import ParkIt.Liveness.Online
import ParkIt.Periods
import ParkIt.Settlement.Balance
import ParkIt.Takings
import ParkIt.Booth.Opening
import ParkIt.Booth.Sharing
import ParkIt.Setup.Wizard
