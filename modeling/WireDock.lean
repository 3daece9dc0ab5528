import WireDock.Library.Transition
import WireDock.Library.FiniteMap
import WireDock.Library.Text
import WireDock.Library.DistinctKeys
import WireDock.Library.Patch
import WireDock.Library.Keyed
import WireDock.Library.Lockstep
import WireDock.Library.KeySort
import WireDock.Domain.Id
import WireDock.Domain.Event
import WireDock.Domain.Hex
import WireDock.Domain.HexPairs
import WireDock.Domain.HexDecoding
import WireDock.Domain.Registry
import WireDock.Repl.Runtime
import WireDock.Registry.Operations
import WireDock.Registry.Change
import WireDock.Registry.World
import WireDock.Registry.WellFormed
import WireDock.Registry.Suffix
import WireDock.Registry.Representation
import WireDock.Registry.Keys
import WireDock.Registry.Displacement
import WireDock.Registry.Numbering
import WireDock.Registry.Rename
import WireDock.Registry.Failure
import WireDock.Registry.Labels
import WireDock.Registry.Holders
import WireDock.Registry.Relabel
import WireDock.Registry.Spelling
import WireDock.Registry.Canonical
import WireDock.Registry.Twins
import WireDock.Registry.Closing
import WireDock.Registry.ClosedLine
import WireDock.Registry.Commute
import WireDock.Registry.Roster
import WireDock.Registry.Allocators
import WireDock.Registry.Broadcast
import WireDock.Registry.Cascade
import WireDock.Registry.Peers
import WireDock.Registry.StatusReport
import WireDock.Registry.StatusOrder
import WireDock.Infra.Listener
import WireDock.Library.Asking
import WireDock.Infra.Connector
import WireDock.Registry.Provenance
import WireDock.System.Machine
import WireDock.Registry.Ledger
import WireDock.Registry.Clients
import WireDock.Registry.Teardown
import WireDock.Registry.Opening
import WireDock.System.Handoff
import WireDock.System.Hangup
import WireDock.Registry.AcceptNumbers
import WireDock.Registry.Writes
import WireDock.Registry.ClientNumbers
import WireDock.Library.Custody
import WireDock.Registry.Tasks
import WireDock.Library.Simulation
import WireDock.Registry.Switchboard
import WireDock.Registry.Refinement
import WireDock.Registry.Turns
import WireDock.Registry.Orders
import WireDock.Registry.Views
import WireDock.System.Mailbox
import WireDock.System.Stale
import WireDock.System.SocketFiles
import WireDock.System.StaleSocket
import WireDock.System.Shutdown
import WireDock.Repl.Parser
import WireDock.Repl.Grammar
import WireDock.Repl.LabelledSend
import WireDock.System.Console
import WireDock.System.Deadlock
import WireDock.System.Overload
import WireDock.System.Reopen
import WireDock.System.Delivery
import WireDock.System.Transcript
import WireDock.System.Session
import WireDock.System.Outgoing
import WireDock.System.Intake
import WireDock.System.Startup
import WireDock.Library.Inevitable
import WireDock.System.Progress
import WireDock.System.ReadTask
import WireDock.System.Identity
import WireDock.Infra.AcceptLoop
import WireDock.System.Network
