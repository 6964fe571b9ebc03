import LiveMigration.Simulation.Stage

/-!
Operations on a stage, as someone would do them by hand: what an operator, another node, the
timers or the system do to one of the nodes, and what is seen of it.
-/

namespace LiveMigration.Simulation

inductive Operation
  | transition (target : Status)
  | run (id : String) (bundle : Path)
  | join (source : String) (bundle : Path)
  | tick (times : Nat)
  | pingTargets
  | checkpoint
  | requestMigration (id : String)
  | execute (line : String)
  | step
  /-- Runs a handler and does other things before it goes on. -/
  | stepDuring (inner : List (Option String × Operation))
  /-- Lets the timers of a running node fire until so many dumps were tried and so many
  targets are left, and then does something else. -/
  | loop (dumps targets : Option Nat) (after : Option (Option String × Operation))
  | wait
  | message (host : String) (line : Bytes)
  | call (address : String) (line : Bytes)
  | addTarget (t : Target)
  | removeTarget (key : String)
  | edit (f : Register → Register)
  | fail (engine transfer single : Option (List String))
  | plant (f : Path → Disk → Disk)
  | tree
  | recover
  | endProcess (result : Engine.Launch → Except EngineError Exit)
  | supervise
  | start
  | control (data : Bytes)
  | sendCommand (line : String)
  | signal
  | sleep

inductive Outcome
  | done
  | word (s : String)
  | flag (b : Bool)
  | count (n : Nat)
  | names (l : List String)
  | dump (d : Dump)
  | ticks (l : List (Except NodeError (Option Dump)))
  | target (t : Option Target)
  | reply (r : Rpc.Reply)
  | answer (b : Bytes)
  | tree (l : List (Bytes × Entry))
  | during (inner : List Outcome) (step : String)
  | loop (reached : Bool) (after : Option Outcome) (step : String)
  | node (e : NodeError)
  | status (e : StatusError)
  | command (e : ControlError)
  | rpc (e : RpcError)
  | invalid (e : ValidationError)

namespace Operation

def returnedWord (returned : Bool) : String := if returned then "returned" else "timeout"

def ofUnit (error : ε → Outcome) : Except ε Unit → Outcome
  | .ok () => .done
  | .error e => error e

def ticks (i : Nat) :
    Nat → Stage → Except Halt (List (Except NodeError (Option Dump)) × Stage)
  | 0, s => .ok ([], s)
  | n + 1, s => do
    let (result, s) ← s.act i fun m rig site => site.dumpTick m.settings rig
    let result ← Stage.withoutOverflow result
    let (rest, s) ← ticks i n s
    return (result :: rest, s)

/-- A disk location named by a path without links. -/
def locationOf (p : Path) : Location := p.pieces.filter (!·.isEmpty)

mutual

def perform (i : Nat) (s : Stage) : Operation → Except Halt (Outcome × Stage)
  | .transition target => do
    let (r, s) ← s.act i fun _ _ site => site.changeStatus target
    return (ofUnit .status r, s)
  | .run id bundle =>
    match ContainerId.ofText id with
    | .error e => return (.invalid e, s)
    | .ok id => do
      let (r, s) ← s.act i fun _ rig site => site.run rig id bundle
      return (ofUnit .node r, s)
  | .join source bundle => do
    let (r, s) ← s.act i fun _ _ site => site.join source bundle
    return (ofUnit .node r, s)
  | .tick times => do
    let (l, s) ← ticks i times s
    return (.ticks l, s)
  | .pingTargets => do
    let (n, s) ← s.act i fun m rig site => site.pingTargets m.settings rig
    return (.count n, s)
  | .checkpoint => do
    let (r, s) ← s.act i fun m rig site => site.checkpoint m.settings rig
    match ← Stage.withoutOverflow r with
    | .ok d => return (.dump d, s)
    | .error e => return (.node e, s)
  | .requestMigration id =>
    match ContainerId.ofText id with
    | .error e => return (.invalid e, s)
    | .ok id => do
      let (r, s) ← s.act i fun _ _ site => site.requestMigration id
      return (ofUnit .node r, s)
  | .execute line =>
    match Control.Command.ofText line with
    | .error e => return (.command e, s)
    | .ok c => do
      let (r, s) ← s.act i fun m rig site => site.execute m.settings rig c
      let r ← Stage.withoutOverflow r
      return (ofUnit (fun e => .command (.refused e.message)) r, s)
  | .step => do
    match ← s.step i with
    | (none, s) => return (.word "would wait", s)
    | (some returned, s) => return (.word (returnedWord returned), s)
  | .stepDuring inner => do
    let (a, s) ← s.actLoop i fun m rig site => site.begin m.settings rig
    let (outcomes, s) ← performAll i s inner
    let (returned, s) ← s.finish i a
    return (.during outcomes (returnedWord returned), s)
  | .loop dumps targets after => do
    let (a, s) ← s.actLoop i fun m rig site => site.begin m.settings rig
    let s ← s.setBudget i dumps
    let s ← match dumps with
      | some n => s.dumpRounds i (n + 1)
      | none => pure s
    let s ← s.pingRound i targets
    let m ← s.member i
    let reached := (m.script.budget.all (· == 0)) && Stage.hasTargets targets m
    let (outcome, s) ← performOptional i s after
    let (returned, s) ← s.finish i a
    let s ← s.setBudget i none
    return (.loop reached outcome (returnedWord returned), s)
  | .wait => do
    match ← s.wait Stage.longestWait i with
    | (none, s) => return (.word "timeout", s)
    | (some status, s) => return (.word status.name, s)
  | .message host line =>
    match Rpc.Message.decode line with
    | .error e => return (.rpc e, s)
    | .ok m => do
      let (reply, s) ← s.act i fun member rig site => site.handle member.settings rig host m
      return (.reply reply, s)
  | .call address line =>
    match Rpc.Message.decode line with
    | .error e => return (.rpc e, s)
    | .ok m => do
      let (r, s) ← s.act i fun member rig site =>
        let (r, env) := Rpc.call rig.network address member.settings.limits.rpc m site.env
        (r, { site with env })
      match r with
      | .ok reply => return (.reply reply, s)
      | .error e => return (.rpc e, s)
  | .addTarget t => do
    let (new, s) ← s.act i fun _ _ site =>
      let (new, r) := site.register.addTarget t
      (new, site.setRegister r)
    return (.flag new, s)
  | .removeTarget key => do
    let (removed, s) ← s.act i fun _ _ site =>
      let (removed, r) := site.register.removeTarget key
      (removed, site.setRegister r)
    return (.target removed, s)
  | .edit f => do
    let (_, s) ← s.act i fun _ _ site => ((), site.modify f)
    return (.done, s)
  | .fail engine transfer single => do
    let (_, s) ← s.act i fun _ _ site => ((), { site with env := { site.env with
      engineFailures := engine.getD site.env.engineFailures
      transferFailures := transfer.getD site.env.transferFailures
      singleFailures := single.getD site.env.singleFailures } })
    return (.done, s)
  | .plant f => do
    let m ← s.member i
    return (.done, { s with disk := f m.settings.dumpPath s.disk })
  | .tree => do
    let m ← s.member i
    return (.tree (s.disk.listing (locationOf m.settings.dumpPath)), s)
  | .recover => do
    let m ← s.member i
    match Node.Site.recover m.settings s.disk with
    | .ok chain => return (.names chain.names, s)
    | .error e => return (.node e, s)
  | .endProcess result => do
    let (found, s) ← s.act i fun _ _ site =>
      match site.node.processes.head?.bind fun l => site.endProcess l (result l) with
      | some site => (true, site)
      | none => (false, site)
    return (if found then .done else .word "nothing running", s)
  | .supervise => do
    let (_, s) ← s.act i fun _ _ site => site.takeSupervision
    return (.done, s)
  | .start => do
    let (r, s) ← s.start i
    return (ofUnit .node r, s)
  | .control data => do
    let m ← s.member i
    match s.controlPeer m with
    | .error _ => return (.word "unreachable", s)
    | .ok () =>
      let (reply, s) ← s.control i data
      return (.answer reply, s)
  | .sendCommand line =>
    match Control.Command.ofText line with
    | .error e => return (.command e, s)
    | .ok c => do
      let (r, s) ← s.sendCommand i c
      return (ofUnit .command r, s)
  | .signal => do
    let before ← s.member i
    if s.members.any (·.node.supervised) then
      let s := s.onSupervised Node.Site.onSignal
      let after ← s.member i
      let unchanged := after.node.register.changes == before.node.register.changes
      return (.word (if unchanged then "ignored" else "terminated"), s)
    else return (.word "no handler", s)
  | .sleep => .ok (.done, s)

def performAll (i : Nat) (s : Stage) :
    List (Option String × Operation) → Except Halt (List Outcome × Stage)
  | [] => .ok ([], s)
  | (name, op) :: rest => do
    let (outcome, s) ← perform ((name.bind s.indexOf?).getD i) s op
    let (outcomes, s) ← performAll i s.supervise rest
    return (outcome :: outcomes, s)

def performOptional (i : Nat) (s : Stage) :
    Option (Option String × Operation) → Except Halt (Option Outcome × Stage)
  | none => .ok (none, s)
  | some (name, op) => do
    let (outcome, s) ← perform ((name.bind s.indexOf?).getD i) s op
    return (some outcome, s.supervise)

end

def performOn (s : Stage) (name : Option String) (op : Operation) :
    Except Halt ((Outcome × Member) × Stage) := do
  let i := (name.bind s.indexOf?).getD 0
  let (outcome, s) ← perform i s op
  let s := s.supervise
  let m ← s.member i
  return ((outcome, m), { s with members := s.members.set i m.forgetRecords })

end Operation

end LiveMigration.Simulation
