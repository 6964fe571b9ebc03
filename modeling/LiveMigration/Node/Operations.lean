import LiveMigration.Chain.Sync
import LiveMigration.Node.Basic

/-!
What an operator and the timers of a node ask of it. All but the ping round happen as a
whole, under the lock. A ping round reads the published targets first and removes the silent
ones in the end; what happens in between is not its business.
-/

namespace LiveMigration.Node.Site

variable {σ : Type}

def run (rig : Rig σ) (id : ContainerId) (bundle : Path) (s : Site σ) :
    Except NodeError Unit × Site σ :=
  match s.changeStatus .running with
  | (.error e, s) => (.error (.status e), s)
  | (.ok (), s) =>
    let s := s.modify fun r => { r with container := some id, bundle := some bundle }
    (.ok (), s.launch rig (.run id bundle))

/-- Becomes a replica of another node. Source and bundle are noted before anything is checked. -/
def join (source : String) (bundle : Path) (s : Site σ) : Except NodeError Unit × Site σ :=
  let s := s.modify fun r => { r with source := some source, bundle := some bundle }
  match s.changeStatus .joining with
  | (.error e, s) => (.error (.status e), s)
  | (.ok (), s) => (.ok (), s)

/-- Sends a target what it misses of the closed chain, if there is one, and then of the
current one. -/
def syncTarget (rig : Rig σ) (s : Site σ) (t : Target) : Site σ :=
  let send := rig.send s.disk t
  let s := match s.register.closed with
    | none => s
    | some closed =>
      let (_, closed, env) := closed.sync send t.key s.env
      { s.modify (fun r => { r with closed := some closed }) with env }
  let (_, chain, env) := s.register.chain.sync send t.key s.env
  { s.modify (fun r => { r with chain }) with env }

/-- Takes the next dump of the cadence and sends every target what it misses; a full dump
closes the chain. No dump is taken unless the container is running. -/
def dumpTick (settings : Settings) (rig : Rig σ) (s : Site σ) :
    Attempt (Option Dump) × Site σ :=
  if s.register.status ≠ .running then (.ok none, s)
  else
    match s.register.container with
    | none => (.error (.error .noContainer), s)
    | some id =>
      match Cadence.next? s.register.chain s.register.closed settings.frequency with
      | none => (.error .overflow, s)
      | some plan =>
        match s.takeDump settings rig id plan true with
        | (.error e, s) => (.error (.error (.engine e)), s)
        | (.ok (), s) =>
          let s := s.modify (·.push plan.dump)
          let s := s.register.targets.foldl (syncTarget rig) s
          let s := if plan.dump.isFull then s.modify Register.closeChain else s
          (.ok (some plan.dump), s)

/-- Pings targets one by one; the ones that failed. -/
def silentTargets (settings : Settings) (rig : Rig σ) : List Target → σ → List Target × σ
  | [], env => ([], env)
  | t :: ts, env =>
    let (result, env) := Rpc.callPing rig.network settings.limits t.rpcAddress env
    let (silent, env) := silentTargets settings rig ts env
    (match result with
      | .ok () => silent
      | .error _ => t :: silent, env)

/-- Removes targets by their keys; how many of them were there. -/
def dropTargets (silent : List Target) (r : Register) : Nat × Register :=
  silent.foldl (fun (n, r) t =>
    match r.removeTarget t.key with
    | (some _, r) => (n + 1, r)
    | (none, r) => (n, r)) (0, r)

def pingTargets (settings : Settings) (rig : Rig σ) (s : Site σ) : Nat × Site σ :=
  let (silent, env) := silentTargets settings rig s.register.published s.env
  let (n, r) := dropTargets silent s.register
  (n, { s.setRegister r with env })

def clearImage (image : Path) (s : Site σ) : Except NodeError Unit × Site σ :=
  if s.disk.isThere image then
    match s.disk.removeAll image with
    | .error fault => (.error (.io .removingCheckpoint fault), s)
    | .ok disk => (.ok (), { s with disk })
  else (.ok (), s)

/-- Takes a full dump outside the cadence; an earlier one of the same name gives way. -/
def checkpoint (settings : Settings) (rig : Rig σ) (s : Site σ) : Attempt Dump × Site σ :=
  if s.register.status ≠ .running then
    (.error (.error (.notRunning s.register.status)), s)
  else
    match s.register.container with
    | none => (.error (.error .noContainer), s)
    | some id =>
      match (Cadence.checkpointBase s.register.chain s.register.closed).checkpoint? with
      | none => (.error .overflow, s)
      | some dump =>
        match s.clearImage (dump.pathIn settings.dumpPath) with
        | (.error e, s) => (.error (.error e), s)
        | (.ok (), s) =>
          match s.takeDump settings rig id ⟨dump, none⟩ true with
          | (.error e, s) => (.error (.error (.engine e)), s)
          | (.ok (), s) => (.ok dump, s)

def requestMigration (requested : ContainerId) (s : Site σ) : Except NodeError Unit × Site σ :=
  match s.register.container with
  | none => (.error .noContainer, s)
  | some running =>
    if running ≠ requested then (.error (.otherContainer running requested), s)
    else if s.register.targets.isEmpty then (.error .noTarget, s)
    else
      match s.changeStatus .migrating with
      | (.error e, s) => (.error (.status e), s)
      | (.ok (), s) => (.ok (), s)

def recover (settings : Settings) (disk : Disk) : Except NodeError Chain := do
  let latest ← (Lineage.recover disk settings.dumpPath).mapError .scan
  let names ← (Lineage.reconstruct disk (latest.pathIn settings.dumpPath)).mapError .lineage
  let dumps ← (Dump.ofNames names).mapError .name
  return Chain.ofDumps dumps

end LiveMigration.Node.Site
