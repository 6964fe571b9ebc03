import LiveMigration.Control.Command
import LiveMigration.Engine.Basic
import LiveMigration.Lineage
import LiveMigration.Rpc.Error
import LiveMigration.Status

/-!
Why a node does not do what it was asked for.
-/

namespace LiveMigration

namespace Node

inductive Step
  | creatingDumpDirectory
  | bindingRpc
  | bindingTransfer
  | removingCheckpoint
  deriving DecidableEq, Repr

def Step.name : Step → String
  | creatingDumpDirectory => "creating dump directory"
  | bindingRpc => "binding RPC listener"
  | bindingTransfer => "binding file transfer listener"
  | removingCheckpoint => "removing previous checkpoint"

end Node

inductive NodeError
  | status (e : StatusError)
  | noContainer
  | notRunning (status : Status)
  | otherContainer (running requested : ContainerId)
  | noTarget
  | notReplicated (target : Target)
  | scan (e : ScanError)
  | name (e : Dump.NameError)
  | lineage (e : LineageError)
  | engine (e : EngineError)
  | rpc (e : RpcError)
  | control (e : ControlError)
  | io (step : Node.Step) (fault : Fault)
  deriving DecidableEq, Repr

def NodeError.message : NodeError → String
  | status e => "Invalid state transition: " ++ e.message
  | noContainer => "No container assigned to this runner"
  | notRunning now => s!"Container is not running (status {now.name})"
  | otherContainer running requested =>
    s!"Container mismatch: running {running.text}, requested {requested.text}"
  | noTarget => "No replication target registered"
  | notReplicated target => s!"Chain not fully replicated to {target.rpcAddress}"
  | scan e => "Dump error: " ++ e.message
  | name e => "Dump error: " ++ e.message
  | lineage e => "Chain error: " ++ e.message
  | engine e => "Checkpoint engine error: " ++ e.message
  | rpc e => "RPC error: " ++ e.message
  | control e => "Control channel error: " ++ e.message
  | io step fault => s!"IO error: {step.name} - " ++ fault.message

namespace Node

/-- How an operation fails that takes dumps: it reports an error, or it would need a sequence
number beyond the last one, which no node survives. -/
inductive Failure
  | error (e : NodeError)
  | overflow
  deriving DecidableEq, Repr

abbrev Attempt (α : Type) := Except Failure α

end Node

end LiveMigration
