import LiveMigration.ErrorName

/-!
Errors on the command line: those of the parts that a command uses, and two of its own.
-/

namespace LiveMigration

namespace CommandLine

inductive CommandError
  | invalid (e : ValidationError)
  | config (e : ConfigError)
  | engine (e : EngineError)
  | node (e : NodeError)
  | control (e : ControlError)
  | invalidSource (address : String)
  | ended (status : Status)
  deriving DecidableEq, Repr

def CommandError.name : CommandError → String
  | invalid e => e.name
  | config e => e.name
  | engine e => e.name
  | node e => e.tag
  | control e => e.name
  | invalidSource _ => "InvalidSource"
  | ended _ => "RunnerFailed"

end CommandLine

end LiveMigration
