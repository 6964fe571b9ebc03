import LiveMigration.Chain.Sync
import LiveMigration.Node.Operations

/-!
The handlers of the statuses that a node passes through: handing its container over, restoring
one, joining a source, recovering from the disk, and terminating. Each part that holds the
lock is a function of its own, so that others may act between two of them.
-/

namespace LiveMigration.Node.Site

variable {σ : Type}

/-- The two last dumps of a handoff: a pre-dump, and a full dump that stops the container.
Those that were taken stay in the chain even if a later step fails. -/
def takeFinalDumps (settings : Settings) (rig : Rig σ) (id : ContainerId) (s : Site σ) :
    Attempt Unit × Site σ :=
  match Cadence.finalPre? s.register.chain s.register.closed with
  | none => (.error .overflow, s)
  | some plan =>
    match s.takeDump settings rig id plan true with
    | (.error e, s) => (.error (.error (.engine e)), s)
    | (.ok (), s) =>
      let s := s.modify (·.push plan.dump)
      match plan.dump.nextFull? with
      | none => (.error .overflow, s)
      | some full =>
        match s.takeDump settings rig id ⟨full, some plan.dump⟩ false with
        | (.error e, s) => (.error (.error (.engine e)), s)
        | (.ok (), s) => (.ok (), s.modify (·.push full))

/-- Sends a target what it misses of the current chain; whether it holds the latest dump
then. -/
def completeTarget (rig : Rig σ) (t : Target) (s : Site σ) : Bool × Site σ :=
  let (_, chain, env) := s.register.chain.sync (rig.send s.disk t) t.key s.env
  (chain.latestLink?.any (·.isHeldBy t.key), { s.modify (fun r => { r with chain }) with env })

/-- Everything up to the message that hands the container over: the final dumps, and a first
target that holds the whole chain. -/
def prepareHandoff (settings : Settings) (rig : Rig σ) (s : Site σ) :
    Attempt (Target × Rpc.Migrate) × Site σ :=
  match s.register.container, s.register.bundle, s.register.targets.head? with
  | some id, some bundle, some t =>
    match s.takeFinalDumps settings rig id with
    | (.error e, s) => (.error e, s)
    | (.ok (), s) =>
      match s.completeTarget rig t with
      | (false, s) => (.error (.error (.notReplicated t)), s)
      | (true, s) =>
        match Rpc.Migrate.new s.register.chain.names id.text bundle with
        | .error e => (.error (.error (.rpc e)), s)
        | .ok m => (.ok (t, m), s)
  | some _, some _, none => (.error (.error .noTarget), s)
  | _, _, _ => (.error (.error .noContainer), s)

def handOver (settings : Settings) (rig : Rig σ) (t : Target) (m : Rpc.Migrate) (s : Site σ) :
    Except RpcError Unit × Site σ :=
  let (result, env) := Rpc.callMigrate rig.network settings.limits t.rpcAddress m s.env
  (result, { s with env })

/-- Restores the container from the latest dump of the chain; the chain is closed with it. -/
def restore (settings : Settings) (rig : Rig σ) (s : Site σ) : Status × Site σ :=
  match s.register.container, s.register.bundle, s.register.chain.latest? with
  | some id, some bundle, some latest =>
    let s := s.launch rig (.restore id (latest.pathIn settings.dumpPath) bundle)
    (.running, s.modify Register.closeChain)
  | _, _, _ => (.failed, s)

def beginJoin (s : Site σ) : Option String × Site σ :=
  (s.register.source, s.modify fun r => { r with joining := true, announced := none })

def askSource (settings : Settings) (rig : Rig σ) (source : String) (m : Rpc.Join) (s : Site σ) :
    Except RpcError ContainerId × Site σ :=
  let (result, env) := Rpc.callJoin rig.network settings.limits source m s.env
  (result, { s with env })

def finishJoin (result : Except RpcError ContainerId) (s : Site σ) : Status × Site σ :=
  let s := s.modify fun r => { r with joining := false, announced := none }
  match result with
  | .ok id => (.standBy, s.modify fun r => { r with container := some id })
  | .error _ => (.failed, s)

def adoptRecovered (result : Except NodeError Chain) (s : Site σ) : Status × Site σ :=
  match result with
  | .ok chain => (.restoring, s.modify fun r => { r with chain, closed := none, source := none })
  | .error _ => (.failed, s)

def terminate (rig : Rig σ) (s : Site σ) : Status × Site σ :=
  match s.register.container, s.register.live with
  | some id, true =>
    match s.callEngine rig (.kill id) with
    | (.ok (), s) => (.stopped, s)
    | (.error _, s) => (.failed, s)
  | _, _ => (.stopped, s)

end LiveMigration.Node.Site
