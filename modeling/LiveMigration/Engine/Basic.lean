import LiveMigration.ContainerId
import LiveMigration.Engine.Exit
import LiveMigration.Path

/-!
What a node asks of the program that runs, dumps and restores containers, and what may go
wrong with it.
-/

namespace LiveMigration

namespace Engine

inductive Action
  | run
  | restore
  | preDump
  | dump
  | kill
  deriving DecidableEq, Repr

def Action.name : Action → String
  | run => "run"
  | restore => "restore"
  | preDump => "pre-dump"
  | dump => "dump"
  | kill => "kill"

/-- Starts a container; it has ended when the call returns. -/
inductive Launch
  | run (id : ContainerId) (bundle : Path)
  | restore (id : ContainerId) (image bundle : Path)
  deriving DecidableEq, Repr

def Launch.container : Launch → ContainerId
  | run id _ => id
  | restore id _ _ => id

def Launch.action : Launch → Action
  | run _ _ => .run
  | restore _ _ _ => .restore

/-- Short calls on a container that runs. -/
inductive Call
  | preDump (id : ContainerId) (image : Path) (parent : Option String)
  | dump (id : ContainerId) (image : Path) (parent : Option String) (leaveRunning : Bool)
  | kill (id : ContainerId)
  deriving DecidableEq, Repr

def Call.container : Call → ContainerId
  | preDump id _ _ => id
  | dump id _ _ _ => id
  | kill id => id

def Call.action : Call → Action
  | preDump _ _ _ => .preDump
  | dump _ _ _ _ => .dump
  | kill _ => .kill

end Engine

inductive EngineError
  | binaryNotFound
  | spawnFailed (action : Engine.Action) (reason : String)
  | commandFailed (action : Engine.Action) (container : ContainerId) (reason : String)
  | aborted (reason : String)
  deriving DecidableEq, Repr

def EngineError.message : EngineError → String
  | binaryNotFound => "runc binary not found at expected path"
  | spawnFailed action reason => s!"Failed to spawn {action.name}: {reason}"
  | commandFailed action container reason =>
    s!"runc {action.name} failed for {container.text}: {reason}"
  | aborted reason => s!"Engine task aborted: {reason}"

end LiveMigration
