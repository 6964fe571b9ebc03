import LiveMigration.Cadence
import LiveMigration.Config.Basic
import LiveMigration.Disk.Basic
import LiveMigration.Engine.Basic
import LiveMigration.Node.Error
import LiveMigration.Node.Register
import LiveMigration.Rpc.Call
import LiveMigration.Transfer.Error

/-!
A node and what it works with: its settings, the engine that runs and dumps containers, the
transfer of dumps, the network, and a disk. What the others do is given by functions; they
may have a state of their own, so that a node is run against them step by step.
-/

namespace LiveMigration

namespace Node

structure Settings where
  rpcHost : String
  rpcPort : Port
  filePort : Port
  dumpPath : Path
  controlSocket : Path
  frequency : UInt64
  limits : Rpc.Limits
  deriving DecidableEq, Repr

def Settings.ofConfig (c : Config) : Settings where
  rpcHost := c.node.rpcHost
  rpcPort := c.node.rpcPort
  filePort := c.node.filePort
  dumpPath := c.node.dumpPath
  controlSocket := c.node.controlSocket
  frequency := c.timing.dumpFrequency
  limits := ⟨c.timing.rpcTimeout.toNat, c.timing.pingTimeout.toNat⟩

structure Ending where
  launch : Engine.Launch
  result : Except EngineError Exit

end Node

structure Node where
  register : Register
  /-- Whether the source has sent a ping that nobody has noticed yet. -/
  pinged : Bool
  /-- The launched processes that have not ended, the oldest one first. -/
  processes : List Engine.Launch
  /-- Ends of processes that nobody has dealt with yet. -/
  endings : List Node.Ending
  supervised : Bool

namespace Node

def initial : Node := ⟨.initial, false, [], [], false⟩

/-- The engine, the transfer of dumps and the network, sharing a state. -/
structure Rig (σ : Type) where
  /-- Short calls of the engine; a dump writes its image to the disk. -/
  engine : Engine.Call → Disk → σ → Except EngineError Unit × Disk × σ
  /-- Takes note of a launch; its process ends at some later time. -/
  launched : Engine.Launch → σ → σ
  /-- Copies a dump from the disk to a target; its predecessor is passed along. -/
  send : Disk → Target → Dump → Option Dump → σ → Except TransferError Unit × σ
  network : Rpc.Network σ

structure Site (σ : Type) where
  node : Node
  disk : Disk
  env : σ

namespace Site

variable {σ : Type}

abbrev register (s : Site σ) : Register := s.node.register

def setRegister (s : Site σ) (r : Register) : Site σ :=
  { s with node := { s.node with register := r } }

def modify (s : Site σ) (f : Register → Register) : Site σ := s.setRegister (f s.register)

@[simp] theorem register_setRegister (s : Site σ) (r : Register) :
    (s.setRegister r).register = r := rfl

@[simp] theorem register_modify (s : Site σ) (f : Register → Register) :
    (s.modify f).register = f s.register := rfl

def changeStatus (s : Site σ) (target : Status) : Except StatusError Unit × Site σ :=
  match s.register.changeStatus target with
  | .ok r => (.ok (), s.setRegister r)
  | .error e => (.error e, s)

def launch (rig : Rig σ) (l : Engine.Launch) (s : Site σ) : Site σ where
  node := { s.node with
    register := { s.register with live := true }
    processes := s.node.processes ++ [l] }
  disk := s.disk
  env := rig.launched l s.env

def callEngine (rig : Rig σ) (c : Engine.Call) (s : Site σ) : Except EngineError Unit × Site σ :=
  let (result, disk, env) := rig.engine c s.disk s.env
  (result, { s with disk, env })

/-- Lets the engine take a dump; a full dump may stop the container. -/
def takeDump (settings : Settings) (rig : Rig σ) (id : ContainerId) (plan : Plan)
    (leaveRunning : Bool) (s : Site σ) : Except EngineError Unit × Site σ :=
  let image := plan.dump.pathIn settings.dumpPath
  s.callEngine rig (match plan.dump.kind with
    | .pre => .preDump id image plan.parentPath
    | .full | .checkpoint => .dump id image plan.parentPath leaveRunning)

end Site

end Node

end LiveMigration
