import LiveMigration.Node.Basic

/-!
A scripted environment for a node. The engine writes a small image for every dump and keeps
a record of what it was asked for; the transfer of dumps delivers nothing and keeps a record
too. Both fail where the script says so. A budget can limit how many dumps the engine takes.
-/

namespace LiveMigration.Simulation

open Engine (Action Call Launch)

inductive EngineRecord
  | call (c : Call) (failed : Bool)
  | launch (l : Launch)
  deriving DecidableEq, Repr

def lastName (p : Path) : String := Bytes.display (p.fileName?.getD [])

def orDash (s : Option String) : String := s.getD "-"

def withFailure (line : String) (failed : Bool) : String :=
  if failed then line ++ " failed" else line

/-- A record as a line: the action, the container, and what else the engine was given, paths
of images by their last name. -/
def EngineRecord.toText : EngineRecord → String
  | .launch (.run id bundle) => s!"run {id.text} {bundle.display}"
  | .launch (.restore id image bundle) => s!"restore {id.text} {lastName image} {bundle.display}"
  | .call (.kill id) _ => s!"kill {id.text}"
  | .call (.preDump id image parent) failed =>
    withFailure s!"pre-dump {id.text} {lastName image} {orDash parent}" failed
  | .call (.dump id image parent leaveRunning) failed =>
    let mode := if leaveRunning then "running" else "stop"
    withFailure s!"dump {id.text} {lastName image} {orDash parent} {mode}" failed

structure SendRecord where
  dump : Dump
  before : Option Dump
  target : Target
  failed : Bool
  deriving DecidableEq, Repr

def SendRecord.toText (r : SendRecord) : String :=
  let before := orDash (r.before.map Dump.name)
  withFailure s!"{r.dump.name} after {before} to {r.target.rpcAddress}" r.failed

structure Script where
  /-- Names of dumps that the engine fails to take, or `kill`. -/
  engineFailures : List String
  /-- Names of dumps that are never transferred. -/
  transferFailures : List String
  /-- Names of dumps whose next transfer fails. -/
  singleFailures : List String
  /-- How many more dumps the engine takes. -/
  budget : Option Nat
  calls : List EngineRecord
  sent : List SendRecord
  deriving DecidableEq, Repr

namespace Script

def empty : Script := ⟨[], [], [], none, [], []⟩

def imageFile : String := "pages-1.img"

/-- Writes the image of a dump: its name as the only content, and the link to its parent. -/
def writeImage (image : Path) (parent : Option String) (disk : Disk) : Disk :=
  let disk := (disk.createDirectories image).2
  let disk := match disk.createFile (image.joinText imageFile) with
    | .ok (place, disk) => disk.append place (image.fileName?.getD [])
    | .error _ => disk
  match parent with
  | some parent =>
    (disk.createLink (Bytes.ofText parent) (image.joinText Lineage.linkName)).toOption.getD disk
  | none => disk

def failsFor (names : List String) (image : Path) : Bool :=
  match image.fileName?.bind Bytes.text? with
  | some name => names.contains name
  | none => false

def takeImage (c : Call) (image : Path) (parent : Option String) (disk : Disk) (s : Script) :
    Except EngineError Unit × Disk × Script :=
  if s.budget = some 0 then
    (.error (.commandFailed c.action c.container "over budget"), disk, s)
  else
    let s := { s with budget := s.budget.map (· - 1) }
    if failsFor s.engineFailures image then
      (.error (.commandFailed c.action c.container "injected"), disk,
        { s with calls := s.calls ++ [.call c true] })
    else (.ok (), writeImage image parent disk, { s with calls := s.calls ++ [.call c false] })

def engine (c : Call) (disk : Disk) (s : Script) : Except EngineError Unit × Disk × Script :=
  match c with
  | .preDump _ image parent => takeImage c image parent disk s
  | .dump _ image parent _ => takeImage c image parent disk s
  | .kill id =>
    let s := { s with calls := s.calls ++ [.call c false] }
    if s.engineFailures.contains Action.kill.name then
      (.error (.commandFailed .kill id "container does not exist"), disk, s)
    else (.ok (), disk, s)

def send (_ : Disk) (t : Target) (d : Dump) (before : Option Dump) (s : Script) :
    Except TransferError Unit × Script :=
  let always := s.transferFailures.contains d.name
  let single := !always && s.singleFailures.contains d.name
  let failed := always || single
  let s := { s with
    singleFailures := if single then s.singleFailures.erase d.name else s.singleFailures
    sent := s.sent ++ [⟨d, before, t, failed⟩] }
  (if failed then .error (.rejected d.name "injected") else .ok (), s)

def rig (network : Rpc.Network Script) : Node.Rig Script where
  engine := engine
  launched := fun l s => { s with calls := s.calls ++ [.launch l] }
  send := send
  network := network

end Script

end LiveMigration.Simulation
