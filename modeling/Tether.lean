import Tether.Identifier
import Tether.State
import Tether.Duration
import Tether.Binary64
import Tether.Decimal.Shortest
import Tether.Decimal.Layout
import Tether.Decimal.Reading
import Tether.Text.Invisible
import Tether.Text.Quoted
import Tether.Json.Fault
import Tether.Json.Scan
import Tether.Json.Number
import Tether.Json.Value
import Tether.Json.Record
import Tether.Json.Write
import Tether.Payload
import Tether.Endpoint.Escape
import Tether.Endpoint.Host
import Tether.Endpoint.Basic
import Tether.Endpoint.Parse
import Tether.Error
import Tether.Event
import Tether.Policy
import Tether.Frame
import Tether.Backoff
import Tether.Config.Basic
import Tether.Config.Document
import Tether.Note
import Tether.Transport.Basic
import Tether.Transport.Mock
import Tether.Transport.Scripted
import Tether.Fifo
import Tether.Outbox
import Tether.Bus
import Tether.Connection.Basic
import Tether.Connection.Serving
import Tether.Connection.Draft
import Tether.Link.Task
import Tether.Link.WebSocket
import Tether.Link.Handshake
import Tether.Simulation.Script
import Tether.Simulation.World
import Tether.Simulation.Queue
import Tether.Simulation.Recorder
import Tether.Simulation.Peer
import Tether.Proofs.Preliminaries
import Tether.Proofs.History
import Tether.Proofs.Run
import Tether.Proofs.Effects
import Tether.Proofs.Moves
import Tether.Proofs.Lifecycle
import Tether.Proofs.Phases
import Tether.Proofs.Attempts
import Tether.Proofs.Starting
import Tether.Proofs.Delivery
import Tether.Proofs.Ledger
import Tether.Proofs.Overflow
import Tether.Proofs.Release
import Tether.Proofs.Outlook
import Tether.Proofs.QueueChecks
import Tether.Proofs.Likeness
import Tether.Proofs.LateSignals
import Tether.Proofs.Delays
import Tether.Proofs.Inbox
import Tether.Proofs.Reception
import Tether.Proofs.LinkLife
import Tether.Proofs.LinkTraffic
import Tether.Proofs.Assembly
import Tether.Proofs.Flushing
import Tether.Proofs.Retention
import Tether.Proofs.Publications
import Tether.Proofs.Handles
import Tether.Proofs.Rounding
import Tether.Proofs.DelayCap
import Tether.Proofs.ShortestDecimal
import Tether.Proofs.ReadingError
import Tether.Proofs.NumberText
import Tether.Proofs.DocumentText
import Tether.Proofs.DocumentRange
import Tether.Proofs.SavedConfig
import Tether.Proofs.ExactDelays
import Tether.Proofs.FramedPayloads
import Tether.Proofs.Hosts
import Tether.Proofs.CanonicalEndpoints
import Tether.Proofs.DocumentLayout
