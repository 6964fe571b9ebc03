import LiveMigration.Path
import LiveMigration.Port
import LiveMigration.Text.Blank

/-!
The configuration of a node. A draft is what an operator wrote, with defaults for what was
left out; a configuration is a draft that passed all checks, and carries them as proofs.
-/

namespace LiveMigration

namespace Config

structure NodeDraft where
  rpcHost : String
  rpcPort : UInt16
  filePort : UInt16
  dumpPath : String
  controlSocket : String
  deriving DecidableEq, Repr

/-- Spans of time are in milliseconds. -/
structure TimingDraft where
  dumpInterval : UInt64
  dumpFrequency : UInt64
  pingInterval : UInt64
  pingTimeout : UInt64
  livenessTimeout : UInt64
  rpcTimeout : UInt64
  deriving DecidableEq, Repr

structure EngineChoice where
  runcPath : Option Path
  tcpEstablished : Bool
  shellJob : Bool
  deriving DecidableEq, Repr

structure Draft where
  node : NodeDraft
  timing : TimingDraft
  engine : EngineChoice
  secret : Option String
  deriving DecidableEq, Repr

def NodeDraft.default : NodeDraft :=
  ⟨"0.0.0.0", 1234, 2222, "/dumps", "/tmp/cmig/control.sock"⟩

def TimingDraft.default : TimingDraft := ⟨5000, 3, 1000, 3000, 5000, 10000⟩

def EngineChoice.default : EngineChoice := ⟨none, false, true⟩

def Draft.default : Draft := ⟨.default, .default, .default, none⟩

structure Node where
  rpcHost : String
  rpcPort : Port
  filePort : Port
  dumpPath : Path
  controlSocket : Path
  ports_ne : rpcPort ≠ filePort
  absolute : dumpPath.isAbsolute = true
  deriving Repr

/-- The names of the numbers of a draft, in the order in which they are checked. -/
def TimingDraft.fields (t : TimingDraft) : List (String × UInt64) := [
  ("dump_interval_ms", t.dumpInterval), ("dump_frequency", t.dumpFrequency),
  ("ping_interval_ms", t.pingInterval), ("ping_timeout_ms", t.pingTimeout),
  ("liveness_timeout_ms", t.livenessTimeout), ("rpc_timeout_ms", t.rpcTimeout)]

/-- A cadence and time limits, none of which is zero. -/
structure Timing extends TimingDraft where
  positive : ∀ field ∈ toTimingDraft.fields, field.2 ≠ 0
  deriving Repr

end Config

structure Config where
  node : Config.Node
  timing : Config.Timing
  engine : Config.EngineChoice
  secret : Option String
  secret_ne : secret ≠ some ""
  deriving Repr

namespace Config

def Node.ofDraft (d : NodeDraft) : Except ValidationError Node := do
  if (Text.trim d.rpcHost).isEmpty then
    .error (.missingField "rpc_host" "node section")
  let rpcPort ← Port.ofNumber d.rpcPort
  let filePort ← Port.ofNumber d.filePort
  if hp : rpcPort = filePort then .error (.invalidPort d.rpcPort .equalPorts)
  else
    let dumpPath := Path.ofText d.dumpPath
    if ha : dumpPath.isAbsolute then
      if d.controlSocket.isEmpty then .error (.missingField "control_socket" "node section")
      else return {
        rpcHost := d.rpcHost, rpcPort, filePort, dumpPath
        controlSocket := .ofText d.controlSocket
        ports_ne := hp, absolute := ha }
    else .error (.invalidField "dump_path" d.dumpPath .relativePath)

/-- The first number that is zero is the one reported. -/
def Timing.ofDraft (t : TimingDraft) : Except ValidationError Timing :=
  match h : t.fields.find? (·.2 = 0) with
  | some (name, _) => .error (.invalidField name "0" .notPositive)
  | none => .ok ⟨t, by simpa using h⟩

def ofDraft (d : Draft) : Except ValidationError Config := do
  let node ← Node.ofDraft d.node
  let timing ← Timing.ofDraft d.timing
  if hs : d.secret = some "" then .error (.invalidField "transfer.secret" "" .emptySecret)
  else return ⟨node, timing, d.engine, d.secret, hs⟩

end Config

end LiveMigration
