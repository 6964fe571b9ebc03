import LiveMigration.Disk.Basic
import LiveMigration.Engine.Basic
import LiveMigration.Text.Blank

/-!
The engine `runc`: where it is found, the arguments of every call, and what its end means.
Open network connections are a matter of full dumps and restores only.
-/

namespace LiveMigration.Engine

structure Runc where
  binary : Path
  tcpEstablished : Bool
  shellJob : Bool
  deriving DecidableEq, Repr

namespace Runc

def usualPlaces : List String := [
  "/usr/sbin/runc", "/usr/bin/runc", "/sbin/runc", "/bin/runc",
  "/usr/local/sbin/runc", "/usr/local/bin/runc"]

/-- The binary that was configured, or else one in a usual place or on the search path. -/
def locate (d : Disk) (configured : Option Path) (onSearchPath : Option Path) :
    Except EngineError Path :=
  match configured with
  | some path => if d.isThere path then .ok path else .error .binaryNotFound
  | none =>
    match (usualPlaces.map Path.ofText).find? d.isThere with
    | some path => .ok path
    | none =>
      match onSearchPath with
      | some path => .ok path
      | none => .error .binaryNotFound

def option (name : String) (wanted : Bool) : List Bytes :=
  if wanted then [Bytes.ofText name] else []

def parentOption : Option String → List Bytes
  | some parent => if parent.isEmpty then [] else [Bytes.ofText "--parent-path", Bytes.ofText parent]
  | none => []

def callArguments (r : Runc) : Call → List Bytes
  | .preDump id image parent =>
    [Bytes.ofText "checkpoint", Bytes.ofText "--pre-dump", Bytes.ofText "--image-path", image.bytes]
      ++ parentOption parent ++ option "--shell-job" r.shellJob ++ [Bytes.ofText id.text]
  | .dump id image parent leaveRunning =>
    [Bytes.ofText "checkpoint", Bytes.ofText "--image-path", image.bytes] ++ parentOption parent
      ++ option "--leave-running" leaveRunning ++ option "--shell-job" r.shellJob
      ++ option "--tcp-established" r.tcpEstablished ++ [Bytes.ofText id.text]
  | .kill id => [Bytes.ofText "kill", Bytes.ofText id.text, Bytes.ofText "KILL"]

def launchArguments (r : Runc) : Launch → List Bytes
  | .run id bundle =>
    [Bytes.ofText "run", Bytes.ofText "--bundle", bundle.bytes, Bytes.ofText id.text]
  | .restore id image bundle =>
    [Bytes.ofText "restore", Bytes.ofText "--image-path", image.bytes,
      Bytes.ofText "--bundle", bundle.bytes] ++ option "--shell-job" r.shellJob
      ++ option "--tcp-established" r.tcpEstablished ++ [Bytes.ofText id.text]

/-- How a process ended and what it wrote to its error stream. -/
structure Ended where
  waitStatus : Int
  errors : Bytes
  deriving DecidableEq, Repr

/-- How a process with these arguments ends; none is started if an argument holds a zero
byte. -/
def ended (arguments : List Bytes) (result : Except Fault Ended) : Except Fault Ended :=
  if arguments.any (·.contains 0) then .error .zeroByteInArgument else result

def spawnError (action : Action) (fault : Fault) : EngineError :=
  .spawnFailed action ("Failed to execute runc: " ++ fault.message)

def callResult (c : Call) : Except Fault Ended → Except EngineError Unit
  | .error fault => .error (spawnError c.action fault)
  | .ok ended =>
    if ended.waitStatus = 0 then .ok ()
    else .error (.commandFailed c.action c.container (Text.trim (Bytes.display ended.errors)))

def launchResult (l : Launch) : Except Fault Ended → Except EngineError Exit
  | .error fault => .error (spawnError l.action fault)
  | .ok ended => .ok (Exit.ofWaitStatus ended.waitStatus)

end Runc

end LiveMigration.Engine
