import LiveMigration.CommandLine.Arguments
import LiveMigration.CommandLine.Error
import LiveMigration.Control.Exchange
import LiveMigration.Engine.Runc
import LiveMigration.Node.Loop
import LiveMigration.Node.Start
import LiveMigration.Transfer.Sender

/-!
What the commands do and print. A command that starts a node stays with it until the node
stops; the others ask a running node over its control socket, or only look at a file.
-/

namespace LiveMigration.CommandLine

/-- What the program prints and ends with; it has no end if its node goes on forever. -/
structure Report where
  output : List String
  errors : List String
  code : Option Nat
  deriving DecidableEq, Repr

namespace Report

def ok (output : List String) : Report := ⟨output, [], some 0⟩

def failed (output : List String) (e : CommandError) : Report :=
  ⟨output, ["Error: " ++ e.name], some 1⟩

def explained (title message : String) : Report :=
  ⟨[], ["✗ " ++ title, "  " ++ message], some 1⟩

end Report

/-- What surrounds the program: processes it starts, addresses it listens on, connections it
makes, and whoever listens at a control socket. -/
structure Surroundings (σ : Type) where
  onSearchPath : Option Path
  started : List Bytes → σ → σ
  /-- How a process with these arguments ends that is waited for. -/
  callEnd : List Bytes → Except Fault Engine.Runc.Ended
  /-- How a process ends that lives as long as its container; none if it lives on. -/
  launchEnd : List Bytes → Option (Except Fault Engine.Runc.Ended)
  listening : Node.Listening σ
  network : Rpc.Network σ
  wire : Transfer.Wire σ
  peer : Disk → Path → Except Fault (Bytes → σ → Bytes × σ)

structure World (σ : Type) where
  disk : Disk
  env : σ

/-- A missing default file means the standard configuration. -/
def loadConfig (disk : Disk) (name : String) : Except CommandError Config :=
  let path := Path.ofText name
  if name = defaultConfig ∧ ¬ disk.isThere path then .ok Config.standard
  else (Config.loadFile disk path).mapError .config

structure Runner where
  config : Config
  engine : Engine.Runc

namespace Runner

variable {σ : Type}

def settings (r : Runner) : Node.Settings := .ofConfig r.config

def rig (r : Runner) (around : Surroundings σ) : Node.Rig σ where
  engine := fun c disk env =>
    let args := r.engine.callArguments c
    let ended := Engine.Runc.ended args (around.callEnd args)
    (Engine.Runc.callResult c ended, disk, around.started args env)
  launched := fun l env => around.started (r.engine.launchArguments l) env
  send := Transfer.sendDump around.wire (.ofSecret r.config.secret) r.config.node.dumpPath
  network := around.network

def start (around : Surroundings σ) (config : String) (w : World σ) :
    Except CommandError Runner × Node.Site σ :=
  let site : Node.Site σ := ⟨.initial, w.disk, w.env⟩
  match loadConfig w.disk config with
  | .error e => (.error e, site)
  | .ok c =>
    match Engine.Runc.locate w.disk c.engine.runcPath around.onSearchPath with
    | .error e => (.error (.engine e), site)
    | .ok binary =>
      let r : Runner := ⟨c, binary, c.engine.tcpEstablished, c.engine.shellJob⟩
      match site.start r.settings around.listening with
      | (.error e, site) => (.error (.node e), site)
      | (.ok (), site) => (.ok r, site)

/-- What happens to a node that nobody disturbs while its loop waits: its source falls
silent, or its process ends. -/
def disturb (r : Runner) (around : Surroundings σ) (a : Node.Activity) (s : Node.Site σ) :
    Option (Node.Activity × Node.Site σ) :=
  match a with
  | .standBy true => some (s.onSilence a)
  | _ => do
    let l ← s.node.processes.head?
    let args := r.engine.launchArguments l
    let ended := Engine.Runc.ended args (← around.launchEnd args)
    let s ← s.endProcess l (Engine.Runc.launchResult l ended)
    return (a, s.superviseAll)

/-- Stays with a node until its status is a final one; none if nothing happens any more. -/
def await (r : Runner) (around : Surroundings σ) : Nat → Node.Activity → Node.Site σ →
    Option Status × Node.Site σ
  | 0, _, s => (none, s)
  | fuel + 1, a, s =>
    if s.isWaiting a then
      match r.disturb around a s with
      | some (a, s) => r.await around fuel a s
      | none => (none, s)
    else
      match a with
      | .deciding =>
        if s.register.status.isFinal then (some s.register.status, s)
        else
          match s.enter r.settings (r.rig around) s.register.status with
          | (some a, s) => r.await around fuel a s
          | (none, s) => (none, s)
      | a =>
        match s.proceed r.settings (r.rig around) a with
        | (some a, s) => r.await around fuel a s
        | (none, s) => (none, s)

/-- An undisturbed node gets from any status to its end in fewer steps. -/
def longestRun : Nat := 64

def finish (r : Runner) (around : Surroundings σ) (output : List String) (s : Node.Site σ) :
    Report × σ :=
  match r.await around longestRun .deciding s with
  | (some .stopped, s) => (.ok (output ++ ["✓ Node stopped"]), s.env)
  | (some status, s) => (.failed output (.ended status), s.env)
  | (none, s) => (⟨output, [], none⟩, s.env)

end Runner

variable {σ : Type}

def run (around : Surroundings σ) (config id : String) (bundle : Path) (w : World σ) :
    Report × σ :=
  match ContainerId.ofText id with
  | .error e => (.failed [] (.invalid e), w.env)
  | .ok id =>
    match Runner.start around config w with
    | (.error e, s) => (.failed [] e, s.env)
    | (.ok r, s) =>
      match s.run (r.rig around) id bundle with
      | (.error e, s) => (.failed [] (.node e), s.env)
      | (.ok (), s) =>
        let timing := r.config.timing
        r.finish around [
          s!"▶ Running {id.text}",
          s!"  Dumping every {timing.dumpInterval.toNat}ms, full dump every {timing.dumpFrequency.toNat} dumps",
          s!"  Control socket: {r.config.node.controlSocket.display}"] s

def listen (around : Surroundings σ) (config : String) (w : World σ) : Report × σ :=
  match Runner.start around config w with
  | (.error e, s) => (.failed [] e, s.env)
  | (.ok r, s) =>
    r.finish around [s!"▶ Waiting for a migration on port {r.config.node.rpcPort.toText}"] s

def isSource (address : String) : Bool :=
  let backwards := address.toList.reverse
  match backwards.dropWhile (· != ':') with
  | ':' :: _ :: _ =>
    (Port.numberOfText? (backwards.takeWhile (· != ':')).reverse).any (· != 0)
  | _ => false

def join (around : Surroundings σ) (config source : String) (bundle : Path) (w : World σ) :
    Report × σ :=
  if ¬ isSource source then (.failed [] (.invalidSource source), w.env)
  else
    match Runner.start around config w with
    | (.error e, s) => (.failed [] e, s.env)
    | (.ok r, s) =>
      match s.join source bundle with
      | (.error e, s) => (.failed [] (.node e), s.env)
      | (.ok (), s) => r.finish around ["▶ Joining " ++ source] s

def ask (around : Surroundings σ) (c : Config) (command : Control.Command) (w : World σ) :
    Except ControlError Unit × σ :=
  let path := c.node.controlSocket
  Control.send path command (around.peer w.disk path) w.env

def migrate (around : Surroundings σ) (config id : String) (w : World σ) : Report × σ :=
  match ContainerId.ofText id with
  | .error e => (.failed [] (.invalid e), w.env)
  | .ok id =>
    match loadConfig w.disk config with
    | .error e => (.failed [] e, w.env)
    | .ok c =>
      match ask around c (.migrate id) w with
      | (.ok (), env) => (.ok [s!"✓ Migration of {id.text} started"], env)
      | (.error e, env) => (.explained "Migration request failed:" e.message, env)

def checkpoint (around : Surroundings σ) (config : String) (w : World σ) : Report × σ :=
  match loadConfig w.disk config with
  | .error e => (.failed [] e, w.env)
  | .ok c =>
    match ask around c .checkpoint w with
    | (.ok (), env) => (.ok ["✓ Checkpoint taken"], env)
    | (.error e, env) => (.failed [] (.control e), env)

def describe (c : Config) : List String := [
  "✓ Configuration is valid",
  "",
  "Node:",
  s!"  RPC Address:        {c.node.rpcHost}:{c.node.rpcPort.toText}",
  s!"  File Transfer Port: {c.node.filePort.toText}",
  s!"  Dump Directory:     {c.node.dumpPath.display}",
  s!"  Control Socket:     {c.node.controlSocket.display}",
  "",
  "Migration:",
  s!"  Dump Interval:      {c.timing.dumpInterval.toNat}ms (full dump every {c.timing.dumpFrequency.toNat})",
  s!"  Ping Interval:      {c.timing.pingInterval.toNat}ms (timeout {c.timing.pingTimeout.toNat}ms)",
  s!"  Liveness Timeout:   {c.timing.livenessTimeout.toNat}ms",
  s!"  RPC Timeout:        {c.timing.rpcTimeout.toNat}ms",
  "",
  "Engine:",
  "  runc:               " ++ match c.engine.runcPath with
    | some path => path.display
    | none => "(discovered)",
  s!"  TCP Established:    {c.engine.tcpEstablished}",
  s!"  Shell Job:          {c.engine.shellJob}",
  "  Frame Auth:         " ++ if c.secret.isSome then "enabled" else "disabled"]

def validate (disk : Disk) (file : String) : Report :=
  match Config.loadFile disk (.ofText file) with
  | .ok c => .ok (describe c)
  | .error e => .explained "Configuration validation failed:" e.message

def execute (around : Surroundings σ) (i : Invocation) (w : World σ) : Report × σ :=
  match i.command with
  | .run id bundle => run around i.config id bundle w
  | .listen => listen around i.config w
  | .join source bundle => join around i.config source bundle w
  | .migrate id => migrate around i.config id w
  | .checkpoint => checkpoint around i.config w
  | .validate file => (validate w.disk file, w.env)

def usage : String := "Usage: cmig [OPTIONS] <COMMAND>"

def help : List String := [
  "CLI tool for live container migration",
  "",
  usage,
  "",
  "Commands:",
  "  run         Start a primary node and run a container",
  "  listen      Start an idle node that waits for a migration",
  "  join        Start a follower replicating from a source node",
  "  migrate     Ask the local node to migrate its container to the first replica",
  "  checkpoint  Ask the local node to take a manual checkpoint",
  "  validate    Validate a configuration file",
  "  help        Print this message or the help of the given subcommand(s)",
  "",
  "Options:",
  "  -c, --config <CONFIG>  Configuration file path [default: cmig.yaml]",
  "  -v, --verbose          Enable verbose logging",
  "  -h, --help             Print help",
  "  -V, --version          Print version"]

def version : String := "cmig 0.1.0"

def call (around : Surroundings σ) (args : List String) (w : World σ) : Report × σ :=
  match Invocation.ofArguments args with
  | .ok i => execute around i w
  | .error .usage => (⟨[], [usage], some 2⟩, w.env)
  | .error .help => (.ok help, w.env)
  | .error .version => (.ok [version], w.env)

end LiveMigration.CommandLine
