import LiveMigration.Config.Load
import LiveMigration.Node.Error
import LiveMigration.Transfer.Error

/-!
The names of errors: one word for each kind, for whoever reports errors without their details.
-/

namespace LiveMigration

def StatusError.name : StatusError → String
  | .illegal .. => "InvalidTransition"
  | .ended _ => "TerminalState"

def ScanError.name : ScanError → String
  | .noFullDump _ => "NoRecoverableDump"
  | .unreadable .. => "Scan"

def LineageError.name : LineageError → String
  | .corrupt _ => "CorruptChain"
  | .unreadable .. => "Unreadable"
  | .dangling _ => "DanglingLink"
  | .cycle _ => "Cycle"
  | .badName .. => "BadLink"
  | .empty => "Empty"

def RpcError.name : RpcError → String
  | .transport .. => "Transport"
  | .timeout .. => "Timeout"
  | .unknownTag _ => "UnknownTag"
  | .malformed .. => "Malformed"
  | .rejected _ => "Rejected"
  | .unexpectedReply _ => "UnexpectedReply"

def TransferError.name : TransferError → String
  | .io .. => "Io"
  | .checksumMismatch .. => "ChecksumMismatch"
  | .unauthenticated => "Unauthenticated"
  | .rejected .. => "Rejected"
  | .malformed _ => "MalformedFrame"

def ValidationError.name : ValidationError → String
  | .missingField .. => "MissingRequiredField"
  | .invalidField .. => "InvalidFieldValue"
  | .invalidPort .. => "InvalidPort"

def ConfigError.name : ConfigError → String
  | .notFound _ => "ConfigNotFound"
  | .unreadable _ => "Io"
  | .undecodable _ => "ConfigParse"
  | .rejected _ => "HardValidation"

def EngineError.name : EngineError → String
  | .binaryNotFound => "BinaryNotFound"
  | .spawnFailed .. => "SpawnFailed"
  | .commandFailed .. => "CommandFailed"
  | .aborted _ => "TaskAborted"

def ControlError.name : ControlError → String
  | .unknownCommand _ => "UnknownCommand"
  | .missingArgument _ => "MissingArgument"
  | .socket .. => "Socket"
  | .refused _ => "Refused"

def NodeError.tag : NodeError → String
  | .status _ => "InvalidStateTransition"
  | .noContainer => "NoContainer"
  | .notRunning _ => "NotRunning"
  | .otherContainer .. => "ContainerMismatch"
  | .noTarget => "NoTarget"
  | .notReplicated _ => "SyncIncomplete"
  | .scan _ | .name _ => "Dump"
  | .lineage _ => "Chain"
  | .engine _ => "Engine"
  | .rpc _ => "Rpc"
  | .control _ => "Control"
  | .io .. => "Io"

end LiveMigration
