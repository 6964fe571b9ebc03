import LiveMigration.Node.Handlers

/-!
The loop of a node. It looks at the status, runs the handler of that status, and applies the
change that a handler of a transient status ends with, unless the status has changed
meanwhile. It goes on in small steps, between which requests, signals and ends of processes
may come in; in two statuses it waits until one of them, or a timer, changes the status.

A node that joins a source asks it and waits for its announcement at once, and takes what comes
first. Here the request is one step: an announcement that came before it wins, and the request
is then not sent; one that comes while the request is out is taken to come after the answer,
when no join is in progress any more.
-/

namespace LiveMigration.Node

inductive Activity
  | deciding
  /-- It has looked at the status, and is about to run the handler of what it saw. -/
  | entering (entered : Status)
  | cadence
  /-- It waits for a container; if it is a replica, also for its source to fall silent. -/
  | standBy (watching : Bool)
  | handingOver (target : Target) (message : Rpc.Migrate)
  | asking (source : String) (message : Rpc.Join)
  | recovering
  | recovered (result : Except NodeError Chain)
  /-- The handler of a status is done and wants another status. -/
  | leaving (entered next : Status)

namespace Site

variable {σ : Type}

/-- The first part of the handler of a status, which need not be the current one any more.
`none` stands for an overflow of the sequence numbers, which ends the node. -/
def enter (settings : Settings) (rig : Rig σ) (entered : Status) (s : Site σ) :
    Option Activity × Site σ :=
  match entered with
  | .stopped | .failed => (some .deciding, s)
  | .standBy => (some (.standBy s.register.source.isSome), s)
  | .running => (some .cadence, s)
  | .migrating =>
    match s.prepareHandoff settings rig with
    | (.ok (t, m), s) => (some (.handingOver t m), s)
    | (.error (.error _), s) => (some (.leaving .migrating .failed), s)
    | (.error .overflow, s) => (none, s)
  | .restoring =>
    let (next, s) := s.restore settings rig
    (some (.leaving .restoring next), s)
  | .joining =>
    match s.beginJoin with
    | (none, s) => (some (.leaving .joining .failed), s)
    | (some source, s) =>
      match Rpc.Join.new settings.rpcPort.number settings.dumpPath settings.filePort.number with
      | .ok m => (some (.asking source m), s)
      | .error e =>
        let (next, s) := s.finishJoin (.error e)
        (some (.leaving .joining next), s)
  | .recovery => (some .recovering, s)
  | .terminated =>
    let (next, s) := s.terminate rig
    (some (.leaving .terminated next), s)

/-- Applies the change that a handler ends with. The change is dropped if the status is
another one by now, or if it is not allowed. -/
def leave (entered next : Status) (s : Site σ) : Site σ :=
  match s.register.changeStatusFrom entered next with
  | .ok (_, r) => s.setRegister r
  | .error _ => s

def isWaiting (a : Activity) (s : Site σ) : Bool :=
  match a with
  | .cadence => s.register.status = .running
  | .standBy _ => s.register.status = .standBy
  | _ => false

/-- What the loop does next by itself. A loop that waits notices pings and nothing else. -/
def proceed (settings : Settings) (rig : Rig σ) (a : Activity) (s : Site σ) :
    Option Activity × Site σ :=
  match a with
  | .deciding => (some (.entering s.register.status), s)
  | .entering entered => s.enter settings rig entered
  | .cadence => (some (if s.isWaiting a then a else .deciding), s)
  | .standBy watching =>
    if s.isWaiting a then
      (some a, if watching then { s with node := { s.node with pinged := false } } else s)
    else (some .deciding, s)
  | .handingOver t m =>
    match s.handOver settings rig t m with
    | (.ok (), s) => (some (.leaving .migrating .stopped), s)
    | (.error _, s) => (some (.leaving .migrating .failed), s)
  | .asking source m =>
    match s.register.announced with
    | some id =>
      let (next, s) := s.finishJoin (.ok id)
      (some (.leaving .joining next), s)
    | none =>
      let (result, s) := s.askSource settings rig source m
      let (next, s) := s.finishJoin result
      (some (.leaving .joining next), s)
  | .recovering => (some (.recovered (recover settings s.disk)), s)
  | .recovered result =>
    let (next, s) := s.adoptRecovered result
    (some (.leaving .recovery next), s)
  | .leaving entered next => (some .deciding, s.leave entered next)

/-- The source has not pinged for too long. -/
def onSilence (a : Activity) (s : Site σ) : Activity × Site σ :=
  match a with
  | .standBy true => (.deciding, s.leave .standBy .recovery)
  | a => (a, s)

/-- Goes on until the handler has returned or waits. -/
def settle (settings : Settings) (rig : Rig σ) : Nat → Activity → Site σ →
    Option Activity × Site σ
  | 0, a, s => (some a, s)
  | fuel + 1, a, s =>
    match a with
    | .deciding => (some a, s)
    | a =>
      if s.isWaiting a then s.proceed settings rig a
      else
        match s.proceed settings rig a with
        | (some a, s) => s.settle settings rig fuel a
        | (none, s) => (none, s)

/-- No handler takes more steps than this to return or to wait. -/
def longestHandler : Nat := 4

def settled (settings : Settings) (rig : Rig σ) (a : Activity) (s : Site σ) :
    Option Activity × Site σ :=
  s.settle settings rig longestHandler a

def begin (settings : Settings) (rig : Rig σ) (s : Site σ) : Option Activity × Site σ :=
  match s.enter settings rig s.register.status with
  | (some a, s) => s.settled settings rig a
  | (none, s) => (none, s)

end Site

end LiveMigration.Node
