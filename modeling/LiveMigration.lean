import LiveMigration.Cadence
import LiveMigration.Chain.Basic
import LiveMigration.Chain.Sync
import LiveMigration.CommandLine.Arguments
import LiveMigration.CommandLine.Error
import LiveMigration.CommandLine.Execute
import LiveMigration.Config.Basic
import LiveMigration.Config.Load
import LiveMigration.ContainerId
import LiveMigration.Control.Command
import LiveMigration.Control.Exchange
import LiveMigration.DecodeError
import LiveMigration.Digest.Crc32
import LiveMigration.Digest.Hex
import LiveMigration.Digest.Sha256
import LiveMigration.Disk.Basic
import LiveMigration.Disk.Lookup
import LiveMigration.Disk.Tree
import LiveMigration.Dump.Basic
import LiveMigration.Dump.Name
import LiveMigration.Engine.Basic
import LiveMigration.Engine.Exit
import LiveMigration.Engine.Runc
import LiveMigration.ErrorName
import LiveMigration.Fault
import LiveMigration.Json.Decode
import LiveMigration.Json.Token
import LiveMigration.Json.Tree
import LiveMigration.Json.Values
import LiveMigration.Json.Writer
import LiveMigration.Lineage
import LiveMigration.Main
import LiveMigration.Node.Basic
import LiveMigration.Node.Error
import LiveMigration.Node.Handlers
import LiveMigration.Node.Loop
import LiveMigration.Node.Operations
import LiveMigration.Node.Register
import LiveMigration.Node.Remote
import LiveMigration.Node.Start
import LiveMigration.Node.Supervision
import LiveMigration.Path
import LiveMigration.Port
import LiveMigration.Proofs.Cadence.Numbers
import LiveMigration.Proofs.Cadence.Phase
import LiveMigration.Proofs.Cadence.Position
import LiveMigration.Proofs.Chain.Arena
import LiveMigration.Proofs.Chain.Attempts
import LiveMigration.Proofs.Chain.Bookkeeping
import LiveMigration.Proofs.Chain.Held
import LiveMigration.Proofs.Chain.Pass
import LiveMigration.Proofs.Chain.Rebuilt
import LiveMigration.Proofs.Chain.WholePass
import LiveMigration.Proofs.Cluster.AcknowledgedHandoff
import LiveMigration.Proofs.Cluster.Basic
import LiveMigration.Proofs.Cluster.Holding
import LiveMigration.Proofs.Cluster.SingleContainer
import LiveMigration.Proofs.Control.Exchange
import LiveMigration.Proofs.Digest.Hex
import LiveMigration.Proofs.Disk.Lookup
import LiveMigration.Proofs.Disk.Operations
import LiveMigration.Proofs.Disk.Paths
import LiveMigration.Proofs.Disk.Places
import LiveMigration.Proofs.Disk.Tree
import LiveMigration.Proofs.Dump.Derivation
import LiveMigration.Proofs.Dump.Directory
import LiveMigration.Proofs.Dump.Name
import LiveMigration.Proofs.Json.Cut
import LiveMigration.Proofs.Json.Lexing
import LiveMigration.Proofs.Json.RoundTrip
import LiveMigration.Proofs.Json.Text
import LiveMigration.Proofs.Lineage.Interruption
import LiveMigration.Proofs.Lineage.Recovered
import LiveMigration.Proofs.Lineage.Scan
import LiveMigration.Proofs.Lineage.Trail
import LiveMigration.Proofs.Lineage.WayBack
import LiveMigration.Proofs.Node.CadenceSchedule
import LiveMigration.Proofs.Node.Chores
import LiveMigration.Proofs.Node.ClosedChain
import LiveMigration.Proofs.Node.ContainerExit
import LiveMigration.Proofs.Node.Course
import LiveMigration.Proofs.Node.Deeds
import LiveMigration.Proofs.Node.Dumping
import LiveMigration.Proofs.Node.Enrolment
import LiveMigration.Proofs.Node.FailedCheckpoint
import LiveMigration.Proofs.Node.Failover
import LiveMigration.Proofs.Node.HandlerRuns
import LiveMigration.Proofs.Node.HandoffAgreement
import LiveMigration.Proofs.Node.HandoffLine
import LiveMigration.Proofs.Node.Holdings
import LiveMigration.Proofs.Node.Identity
import LiveMigration.Proofs.Node.Orders
import LiveMigration.Proofs.Node.Overflow
import LiveMigration.Proofs.Node.PingRound
import LiveMigration.Proofs.Node.Provision
import LiveMigration.Proofs.Node.Refusal
import LiveMigration.Proofs.Node.RefusedJoin
import LiveMigration.Proofs.Node.Registration
import LiveMigration.Proofs.Node.Registry
import LiveMigration.Proofs.Node.Rejoin
import LiveMigration.Proofs.Node.Termination
import LiveMigration.Proofs.Node.Turns
import LiveMigration.Proofs.Node.Underway
import LiveMigration.Proofs.Replica.Abreast
import LiveMigration.Proofs.Replica.Following
import LiveMigration.Proofs.Replica.Ledger
import LiveMigration.Proofs.Replica.Paired
import LiveMigration.Proofs.Replica.Recovery
import LiveMigration.Proofs.Replica.ReplicatedLineage
import LiveMigration.Proofs.Rpc.ArrivalOrder
import LiveMigration.Proofs.Rpc.Codec
import LiveMigration.Proofs.Rpc.Framing
import LiveMigration.Proofs.Rpc.Handoff
import LiveMigration.Proofs.Rpc.LineLength
import LiveMigration.Proofs.Rpc.RoundTrip
import LiveMigration.Proofs.Target.Key
import LiveMigration.Proofs.Text.Bytes
import LiveMigration.Proofs.Text.Lines
import LiveMigration.Proofs.Transfer.Arrival
import LiveMigration.Proofs.Transfer.AtomicReceipt
import LiveMigration.Proofs.Transfer.Authentication
import LiveMigration.Proofs.Transfer.Containment
import LiveMigration.Proofs.Transfer.Contents
import LiveMigration.Proofs.Transfer.Delivery
import LiveMigration.Proofs.Transfer.Frame
import LiveMigration.Proofs.Transfer.Header
import LiveMigration.Proofs.Transfer.Intake
import LiveMigration.Proofs.Transfer.Interruption
import LiveMigration.Proofs.Transfer.Receipt
import LiveMigration.Proofs.Transfer.Repetition
import LiveMigration.Proofs.Transfer.Stream
import LiveMigration.Proofs.Transfer.Writes
import LiveMigration.Rpc.Call
import LiveMigration.Rpc.Error
import LiveMigration.Rpc.Message
import LiveMigration.Rpc.Reply
import LiveMigration.Rpc.Session
import LiveMigration.Rpc.Wire
import LiveMigration.Simulation.Operation
import LiveMigration.Simulation.Script
import LiveMigration.Simulation.Stage
import LiveMigration.Status
import LiveMigration.Target
import LiveMigration.Text.Blank
import LiveMigration.Text.Bytes
import LiveMigration.Text.Quoted
import LiveMigration.Text.Unprintable
import LiveMigration.Transfer.Error
import LiveMigration.Transfer.Frame
import LiveMigration.Transfer.Header
import LiveMigration.Transfer.Receiver
import LiveMigration.Transfer.Sender
import LiveMigration.Validation
import LiveMigration.Yaml.Cursor
import LiveMigration.Yaml.Decode
import LiveMigration.Yaml.Event
import LiveMigration.Yaml.Lexer
import LiveMigration.Yaml.Scalar
import LiveMigration.Yaml.Token
