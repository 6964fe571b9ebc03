import LiveMigration.ContainerId
import LiveMigration.Fault
import LiveMigration.Path
import LiveMigration.Text.Blank

/-!
What an operator can ask a running node for, as a line of words. Words after those that a
command needs are ignored.
-/

namespace LiveMigration

inductive ControlError
  | unknownCommand (word : String)
  | missingArgument (command : String)
  | socket (path : Path) (fault : Fault)
  | refused (reason : String)
  deriving DecidableEq, Repr

def ControlError.message : ControlError → String
  | unknownCommand word => s!"Unknown control command: {word}"
  | missingArgument command => s!"Control command '{command}' is missing an argument"
  | socket path fault => s!"Control socket error at {path.display}: " ++ fault.message
  | refused reason => s!"Command refused: {reason}"

/-- What a node says of an error in its answer: of a refusal the bare reason. -/
def ControlError.answer : ControlError → String
  | refused reason => reason
  | e => e.message

namespace Control

inductive Command
  /-- Take a full dump and let the container run on. -/
  | checkpoint
  /-- Hand the named container to the first replica. -/
  | migrate (id : ContainerId)
  deriving DecidableEq, Repr

namespace Command

def toText : Command → String
  | checkpoint => "CHECKPOINT"
  | migrate id => "MIGRATE " ++ id.text

def ofWords : List String → Except ControlError Command
  | [] => .error (.unknownCommand "")
  | "CHECKPOINT" :: _ => .ok .checkpoint
  | ["MIGRATE"] => .error (.missingArgument "MIGRATE")
  | "MIGRATE" :: id :: _ =>
    match ContainerId.ofText id with
    | .ok id => .ok (.migrate id)
    | .error why => .error (.refused why.message)
  | word :: _ => .error (.unknownCommand word)

def ofText (line : String) : Except ControlError Command := ofWords (Text.words line)

end Command

end Control

end LiveMigration
