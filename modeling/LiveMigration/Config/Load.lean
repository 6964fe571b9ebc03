import LiveMigration.Config.Basic
import LiveMigration.Disk.Basic
import LiveMigration.Yaml.Decode

/-!
Reading a configuration from a YAML text or file. Everything has a default, unknown names
are refused, and a text of blanks alone is the default configuration.
-/

namespace LiveMigration

inductive ConfigError
  | notFound (path : Path)
  | unreadable (fault : Fault)
  | undecodable (e : DecodeError)
  | rejected (why : ValidationError)
  deriving DecidableEq, Repr

def ConfigError.message : ConfigError → String
  | notFound path => "Configuration file not found: " ++ path.display
  | unreadable fault => "IO error: reading config file - " ++ fault.message
  | undecodable e => "Configuration parse error: YAML parse error: " ++ e.message
  | rejected why => "Hard validation error: " ++ why.message

namespace Config

open Yaml

def readPort : Reader UInt16 := fun d events => do
  let (n, rest) ← readNatural UInt16.size d events
  return (UInt16.ofNat n, rest)

def readNumber : Reader UInt64 := fun d events => do
  let (n, rest) ← readNatural UInt64.size d events
  return (UInt64.ofNat n, rest)

structure NodeSlots where
  rpcHost : Option String
  rpcPort : Option UInt16
  filePort : Option UInt16
  dumpPath : Option String
  controlSocket : Option String

def NodeSlots.take (s : NodeSlots) (key : String) : Reader NodeSlots := fun d events =>
  if key = "rpc_host" then do
    let (v, rest) ← fillFrom key s.rpcHost readText d events
    return ({ s with rpcHost := v }, rest)
  else if key = "rpc_port" then do
    let (v, rest) ← fillFrom key s.rpcPort readPort d events
    return ({ s with rpcPort := v }, rest)
  else if key = "file_transfer_port" then do
    let (v, rest) ← fillFrom key s.filePort readPort d events
    return ({ s with filePort := v }, rest)
  else if key = "dump_path" then do
    let (v, rest) ← fillFrom key s.dumpPath readText d events
    return ({ s with dumpPath := v }, rest)
  else if key = "control_socket" then do
    let (v, rest) ← fillFrom key s.controlSocket readText d events
    return ({ s with controlSocket := v }, rest)
  else .error (.unknownField key)

def NodeSlots.draft (s : NodeSlots) : NodeDraft :=
  let default := NodeDraft.default
  ⟨s.rpcHost.getD default.rpcHost, s.rpcPort.getD default.rpcPort,
    s.filePort.getD default.filePort, s.dumpPath.getD default.dumpPath,
    s.controlSocket.getD default.controlSocket⟩

def readNode : Reader NodeDraft := fun d events => do
  let (s, rest) ← readRecord NodeSlots.take ⟨none, none, none, none, none⟩ d events
  return (s.draft, rest)

structure TimingSlots where
  dumpInterval : Option UInt64
  dumpFrequency : Option UInt64
  pingInterval : Option UInt64
  pingTimeout : Option UInt64
  livenessTimeout : Option UInt64
  rpcTimeout : Option UInt64

def TimingSlots.take (s : TimingSlots) (key : String) : Reader TimingSlots := fun d events =>
  if key = "dump_interval_ms" then do
    let (v, rest) ← fillFrom key s.dumpInterval readNumber d events
    return ({ s with dumpInterval := v }, rest)
  else if key = "dump_frequency" then do
    let (v, rest) ← fillFrom key s.dumpFrequency readNumber d events
    return ({ s with dumpFrequency := v }, rest)
  else if key = "ping_interval_ms" then do
    let (v, rest) ← fillFrom key s.pingInterval readNumber d events
    return ({ s with pingInterval := v }, rest)
  else if key = "ping_timeout_ms" then do
    let (v, rest) ← fillFrom key s.pingTimeout readNumber d events
    return ({ s with pingTimeout := v }, rest)
  else if key = "liveness_timeout_ms" then do
    let (v, rest) ← fillFrom key s.livenessTimeout readNumber d events
    return ({ s with livenessTimeout := v }, rest)
  else if key = "rpc_timeout_ms" then do
    let (v, rest) ← fillFrom key s.rpcTimeout readNumber d events
    return ({ s with rpcTimeout := v }, rest)
  else .error (.unknownField key)

def TimingSlots.draft (s : TimingSlots) : TimingDraft :=
  let default := TimingDraft.default
  ⟨s.dumpInterval.getD default.dumpInterval, s.dumpFrequency.getD default.dumpFrequency,
    s.pingInterval.getD default.pingInterval, s.pingTimeout.getD default.pingTimeout,
    s.livenessTimeout.getD default.livenessTimeout, s.rpcTimeout.getD default.rpcTimeout⟩

def readTiming : Reader TimingDraft := fun d events => do
  let (s, rest) ←
    readRecord TimingSlots.take ⟨none, none, none, none, none, none⟩ d events
  return (s.draft, rest)

structure EngineSlots where
  runcPath : Option (Option String)
  tcpEstablished : Option Bool
  shellJob : Option Bool

def EngineSlots.take (s : EngineSlots) (key : String) : Reader EngineSlots := fun d events =>
  if key = "runc_path" then do
    let (v, rest) ← fillFrom key s.runcPath readOptionalText d events
    return ({ s with runcPath := v }, rest)
  else if key = "tcp_established" then do
    let (v, rest) ← fillFrom key s.tcpEstablished readBool d events
    return ({ s with tcpEstablished := v }, rest)
  else if key = "shell_job" then do
    let (v, rest) ← fillFrom key s.shellJob readBool d events
    return ({ s with shellJob := v }, rest)
  else .error (.unknownField key)

def readEngine : Reader EngineChoice := fun d events => do
  let (s, rest) ← readRecord EngineSlots.take ⟨none, none, none⟩ d events
  let default := EngineChoice.default
  return (⟨s.runcPath.join.map .ofText, s.tcpEstablished.getD default.tcpEstablished,
    s.shellJob.getD default.shellJob⟩, rest)

/-- The only setting of transfers is the secret that their frames are signed with. -/
def readTransfer : Reader (Option String) := fun d events => do
  let (secret, rest) ← readRecord (fun slot key d events =>
    if key = "secret" then fillFrom key slot readOptionalText d events
    else .error (.unknownField key)) none d events
  return (secret.join, rest)

structure Slots where
  node : Option NodeDraft
  timing : Option TimingDraft
  engine : Option EngineChoice
  secret : Option (Option String)

def Slots.take (s : Slots) (key : String) : Reader Slots := fun d events =>
  if key = "node" then do
    let (v, rest) ← fillFrom key s.node readNode d events
    return ({ s with node := v }, rest)
  else if key = "migration" then do
    let (v, rest) ← fillFrom key s.timing readTiming d events
    return ({ s with timing := v }, rest)
  else if key = "engine" then do
    let (v, rest) ← fillFrom key s.engine readEngine d events
    return ({ s with engine := v }, rest)
  else if key = "transfer" then do
    let (v, rest) ← fillFrom key s.secret readTransfer d events
    return ({ s with secret := v }, rest)
  else .error (.unknownField key)

def readDraft : Reader Draft := fun d events => do
  let (s, rest) ← readRecord Slots.take ⟨none, none, none, none⟩ d events
  let default := Draft.default
  return (⟨s.node.getD default.node, s.timing.getD default.timing,
    s.engine.getD default.engine, s.secret.getD default.secret⟩, rest)

def draftOfText (text : String) : Decoded Draft :=
  if (Text.trim text).isEmpty then .ok .default else decodeText readDraft text

def ofText (text : String) : Except ConfigError Config := do
  let draft ← (draftOfText text).mapError .undecodable
  (ofDraft draft).mapError .rejected

def loadFile (d : Disk) (path : Path) : Except ConfigError Config := do
  if ¬ d.isThere path then .error (.notFound path)
  let content ← (d.readFile path).mapError .unreadable
  match Bytes.text? content with
  | some text => ofText text
  | none => .error (.unreadable .notText)

theorem ofDraft_default_isOk : (ofDraft .default).isOk = true := by
  simp [ofDraft, Node.ofDraft, Timing.ofDraft, Port.ofNumber, Draft.default, NodeDraft.default]
  decide

def standard : Config :=
  match h : ofDraft .default with
  | .ok c => c
  | .error _ => absurd ofDraft_default_isOk (by simp [h, Except.isOk, Except.toBool])

end Config

end LiveMigration
