import LiveMigration.Chain.Sync
import LiveMigration.Control.Command
import LiveMigration.Node.Operations

/-!
What other nodes and operators ask of a node over its sockets. Each request is answered under
the lock; the work that an accepted handoff leads to is done by the loop of the node.
-/

namespace LiveMigration.Node.Site

variable {σ : Type}

/-- The target that a joining node announces; its host is the one it called from. -/
def targetOf (host : String) (m : Rpc.Join) : Target := ⟨host, m.rpcPort, m.dumpPath, m.filePort⟩

/-- Registers a replica and sends it both chains as a whole. -/
def onJoin (rig : Rig σ) (host : String) (m : Rpc.Join) (s : Site σ) : Rpc.Reply × Site σ :=
  match s.register.container with
  | none => (.error "no container to replicate", s)
  | some id =>
    let t := targetOf host m
    let s := s.modify fun r => (r.addTarget t).2
    let send := rig.send s.disk t
    let s := match s.register.closed with
      | none => s
      | some closed =>
        let (_, closed, env) := closed.sendAll send t.key s.env
        { s.modify (fun r => { r with closed := some closed }) with env }
    let (_, chain, env) := s.register.chain.sendAll send t.key s.env
    (.joined id.text, { s.modify (fun r => { r with chain }) with env })

/-- Takes over a container whose dumps are all here; it will be restored from the last one. -/
def onMigrate (settings : Settings) (m : Rpc.Migrate) (s : Site σ) : Rpc.Reply × Site σ :=
  if s.register.status ≠ .standBy then
    (.error ("not accepting migrations in status " ++ s.register.status.name), s)
  else
    match m.dumps.find? fun d => !s.disk.isDirectory (d.pathIn settings.dumpPath) with
    | some missing => (.error s!"dump {missing.name} not present", s)
    | none =>
      let s := s.modify fun r => { r with
        chain := Chain.ofDumps m.dumps
        closed := none
        container := some m.container
        bundle := some m.bundle
        source := none }
      match s.changeStatus .restoring with
      | (.ok (), s) => (.ack, s)
      | (.error e, s) => (.error e.message, s)

def onJoinAck (m : Rpc.JoinAck) (s : Site σ) : Rpc.Reply × Site σ :=
  if s.register.joining then
    (.ack, s.modify fun r => { r with joining := false, announced := some m.container })
  else (.error "no join in progress", s)

def onPing (s : Site σ) : Rpc.Reply × Site σ :=
  (.ack, { s with node := { s.node with pinged := true } })

def handle (settings : Settings) (rig : Rig σ) (host : String) (m : Rpc.Message) (s : Site σ) :
    Rpc.Reply × Site σ :=
  match m with
  | .join m => s.onJoin rig host m
  | .joinAck m => s.onJoinAck m
  | .ping => s.onPing
  | .migrate m => s.onMigrate settings m

def execute (settings : Settings) (rig : Rig σ) (c : Control.Command) (s : Site σ) :
    Attempt Unit × Site σ :=
  match c with
  | .checkpoint =>
    let (result, s) := s.checkpoint settings rig
    (result.map fun _ => (), s)
  | .migrate id =>
    let (result, s) := s.requestMigration id
    (result.mapError .error, s)

end LiveMigration.Node.Site
