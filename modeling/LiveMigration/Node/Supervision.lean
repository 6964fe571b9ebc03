import LiveMigration.Node.Basic

/-!
The ends of container processes and the signals to a node. Processes end in any order. One that
ends leaves a note, and the supervisor deals with the notes in order: a container that exited
stops the node and one that failed makes the node fail, but only a running node; a container
that was killed by its checkpoint changes nothing.
-/

namespace LiveMigration.Node

def Ending.next? (e : Ending) : Option Status :=
  match e.result with
  | .ok .checkpointed => none
  | .ok (.exited _) => some .stopped
  | .error _ => some .failed

namespace Site

variable {σ : Type}

/-- A process ends, if it was launched and has not ended yet. -/
def endProcess (l : Engine.Launch) (result : Except EngineError Exit) (s : Site σ) :
    Option (Site σ) :=
  if l ∈ s.node.processes then
    some { s with node := { s.node with
      processes := s.node.processes.erase l
      endings := s.node.endings ++ [⟨l, result⟩] } }
  else none

def recordEnding (e : Ending) (r : Register) : Register :=
  let r := if r.container = some e.launch.container then { r with live := false } else r
  match e.next? with
  | some next =>
    if r.status = .running then (r.changeStatus next).toOption.getD r else r
  | none => r

def supervise (s : Site σ) : Site σ :=
  match s.node.endings with
  | [] => s
  | e :: rest =>
    { s with node := { s.node with
        register := recordEnding e s.register
        endings := rest } }

def superviseAll (s : Site σ) : Site σ :=
  s.node.endings.foldl (fun s _ => s.supervise) s

/-- From now on someone deals with endings; the second caller is told that someone does
already. -/
def takeSupervision (s : Site σ) : Bool × Site σ :=
  (!s.node.supervised, { s with node := { s.node with supervised := true } })

/-- A signal asks the node to terminate; where that is not allowed it is ignored. -/
def onSignal (s : Site σ) : Site σ := (s.changeStatus .terminated).2

end Site

end LiveMigration.Node
