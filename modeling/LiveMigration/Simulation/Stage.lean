import LiveMigration.Node.Loop
import LiveMigration.Node.Remote
import LiveMigration.Node.Start
import LiveMigration.Simulation.Script
import LiveMigration.Transfer.Sender

/-!
Several nodes on one machine. They share a disk and the addresses that can be listened on;
each has a script of its own, and sends its dumps either by that script or over the network.
No connection between them gets through: every attempt meets the same fault.
-/

namespace LiveMigration.Simulation

structure Member where
  name : String
  settings : Node.Settings
  secret : Option String
  sendsFiles : Bool
  /-- How often the timers of a running node fire; none if they never do. -/
  dumpInterval : Option Nat
  pingInterval : Option Nat
  node : Node
  script : Script
  served : Bool

abbrev Listeners := List (String × Port)

structure Stage where
  members : List Member
  disk : Disk
  listeners : Listeners
  fault : Fault

/-- A node whose sequence numbers are used up ends the whole run. -/
inductive Halt
  | overflow
  | noSuchMember
  deriving DecidableEq, Repr

def bindAddress (host : String) (port : Port) (l : Listeners) :
    Except Fault Unit × Listeners :=
  if l.contains (host, port) then (.error (.os .addressInUse), l)
  else (.ok (), l ++ [(host, port)])

def machine : Node.Listening Listeners where
  bind := bindAddress
  release := fun host port l => l.filter (· ≠ (host, port))

def brokenWire (fault : Fault) : Transfer.Wire σ := fun _ _ s =>
  (.error (.connecting, fault), s)

namespace Member

def rig (m : Member) (fault : Fault) : Node.Rig Script :=
  let rig := Script.rig (Rpc.brokenNetwork fault)
  if m.sendsFiles then
    let auth := Transfer.Auth.ofSecret m.secret
    { rig with send := Transfer.sendDump (brokenWire fault) auth m.settings.dumpPath }
  else rig

def forgetRecords (m : Member) : Member :=
  { m with script := { m.script with calls := [], sent := [] } }

/-- Whether the loop would wait for something that no timer brings about. -/
def isWaiting (m : Member) : Bool :=
  let r := m.node.register
  r.status = .running ∨ (r.status = .standBy ∧ r.source.isNone)

end Member

namespace Stage

def member (s : Stage) (i : Nat) : Except Halt Member :=
  match s.members[i]? with
  | some m => .ok m
  | none => .error .noSuchMember

def indexOf? (s : Stage) (name : String) : Option Nat := s.members.findIdx? (·.name == name)

def act (s : Stage) (i : Nat)
    (f : Member → Node.Rig Script → Node.Site Script → α × Node.Site Script) :
    Except Halt (α × Stage) := do
  let m ← s.member i
  let (result, site) := f m (m.rig s.fault) ⟨m.node, s.disk, m.script⟩
  return (result, { s with
    members := s.members.set i { m with node := site.node, script := site.env }
    disk := site.disk })

def actLoop (s : Stage) (i : Nat)
    (f : Member → Node.Rig Script → Node.Site Script → Option Node.Activity × Node.Site Script) :
    Except Halt (Node.Activity × Stage) := do
  match ← s.act i f with
  | (some a, s) => return (a, s)
  | (none, _) => .error .overflow

def withoutOverflow : Node.Attempt α → Except Halt (Except NodeError α)
  | .ok v => .ok (.ok v)
  | .error (.error e) => .ok (.error e)
  | .error .overflow => .error .overflow

def onSupervised (f : Node.Site Script → Node.Site Script) (s : Stage) : Stage :=
  { s with members := s.members.map fun m =>
      if m.node.supervised then { m with node := (f ⟨m.node, s.disk, m.script⟩).node } else m }

def supervise (s : Stage) : Stage := s.onSupervised Node.Site.superviseAll

def start (s : Stage) (i : Nat) : Except Halt (Except NodeError Unit × Stage) := do
  let m ← s.member i
  let (result, site) := Node.Site.start m.settings machine ⟨m.node, s.disk, s.listeners⟩
  let bound := match result with
    | .ok () | .error (.status _) => true
    | .error _ => false
  return (result, { s with
    members := s.members.set i { m with node := site.node, served := m.served || bound }
    disk := site.disk, listeners := site.env })

def isOver : Node.Activity → Bool
  | .deciding => true
  | _ => false

/-- Runs a handler until nothing happens any more, silence included; whether it has returned
then. -/
def finish (s : Stage) (i : Nat) (a : Node.Activity) : Except Halt (Bool × Stage) := do
  let (a, s) ← s.actLoop i fun m rig site => site.settled m.settings rig a
  let (a, s) ← s.act i fun _ _ site => site.onSilence a
  return (isOver a, s)

/-- Runs the handler of the current status; none if that would only wait. -/
def step (s : Stage) (i : Nat) : Except Halt (Option Bool × Stage) := do
  let m ← s.member i
  if m.isWaiting then return (none, s)
  else
    let (a, s) ← s.actLoop i fun m rig site => site.begin m.settings rig
    let (returned, s) ← s.finish i a
    return (some returned, s)

/-- Runs handlers until the status is a final one; none if nothing happens any more. -/
def wait : Nat → Stage → Nat → Except Halt (Option Status × Stage)
  | 0, s, _ => .ok (none, s)
  | fuel + 1, s, i => do
    let m ← s.member i
    if m.node.register.status.isFinal then return (some m.node.register.status, s)
    else
      match ← s.step i with
      | (none, s) => return (none, s)
      | (some _, s) => wait fuel s.supervise i

/-- Whatever its statuses are, a node that nobody disturbs ends or waits within so many
handlers. -/
def longestWait : Nat := 16

def setBudget (s : Stage) (i : Nat) (budget : Option Nat) : Except Halt Stage := do
  let (_, s) ← s.act i fun _ _ site => ((), { site with env := { site.env with budget } })
  return s

def dumpRounds (i : Nat) : Nat → Stage → Except Halt Stage
  | 0, s => .ok s
  | fuel + 1, s => do
    let m ← s.member i
    if m.dumpInterval.isNone ∨ m.script.budget = some 0 then return s
    else
      let (result, s) ← s.act i fun m rig site => site.dumpTick m.settings rig
      let _ ← withoutOverflow result
      dumpRounds i fuel s

def hasTargets (wanted : Option Nat) (m : Member) : Bool :=
  match wanted with
  | some n => m.node.register.targets.length == n
  | none => true

def pingRound (i : Nat) (wanted : Option Nat) (s : Stage) : Except Halt Stage := do
  let m ← s.member i
  if m.pingInterval.isNone ∨ hasTargets wanted m then return s
  else
    let (_, s) ← s.act i fun m rig site => site.pingTargets m.settings rig
    return s

def controlPeer (s : Stage) (m : Member) : Except Fault Unit :=
  match s.disk.inspect m.settings.controlSocket with
  | .error fault => .error fault
  | .ok _ => if m.served then .ok () else .error (.os .connectionRefused)

/-- What a node has become while it serves its control socket, or why it cannot. -/
abbrev Serving := Except Halt (Node.Site Script)

def executeOn (m : Member) (rig : Node.Rig Script) : Control.Handler Serving :=
  fun c serving =>
    match serving with
    | .error halt => (.ok (), .error halt)
    | .ok site =>
      let (result, site) := site.execute m.settings rig c
      match withoutOverflow result with
      | .ok r => (r.mapError fun e => .refused e.message, .ok site)
      | .error halt => (.ok (), .error halt)

def control (s : Stage) (i : Nat) (data : Bytes) : Except Halt (Bytes × Stage) := do
  let m ← s.member i
  let (reply, serving) :=
    Control.serve (executeOn m (m.rig s.fault)) data (.ok ⟨m.node, s.disk, m.script⟩)
  let site ← serving
  return (reply, { s with
    members := s.members.set i { m with node := site.node, script := site.env }
    disk := site.disk })

def sendCommand (s : Stage) (i : Nat) (c : Control.Command) :
    Except Halt (Except ControlError Unit × Stage) := do
  let m ← s.member i
  let peer : Except Fault (Bytes → Except Halt Stage → Bytes × Except Halt Stage) :=
    (s.controlPeer m).map fun _ => fun line r =>
      match r.bind fun s => s.control i line with
      | .ok (reply, s) => (reply, .ok s)
      | .error halt => ([], .error halt)
  let (result, s) := Control.send m.settings.controlSocket c peer (.ok s)
  return (result, ← s)

end Stage

end LiveMigration.Simulation
