/-!
The status of a node and the changes it allows. `Terminated` can be entered from everywhere
else, `Failed` can be left for nothing, and `Stopped` only for a new start.
-/

namespace LiveMigration

inductive Status
  /-- Not started, or done with its container. -/
  | stopped
  | standBy
  | running
  | migrating
  | restoring
  | joining
  /-- The source went silent; the chain is rebuilt from the disk. -/
  | recovery
  /-- An error that only a new process gets over. -/
  | failed
  /-- A termination signal arrived; the container is to be killed. -/
  | terminated
  deriving DecidableEq, Repr

namespace Status

def all : List Status :=
  [stopped, standBy, running, migrating, restoring, joining, recovery, failed, terminated]

def name : Status → String
  | stopped => "Stopped"
  | standBy => "StandBy"
  | running => "Running"
  | migrating => "Migrating"
  | restoring => "Restoring"
  | joining => "Joining"
  | recovery => "Recovery"
  | failed => "Failed"
  | terminated => "Terminated"

def ofName? (s : String) : Option Status := all.find? (·.name == s)

/-- The handler of a transient status runs once each time the status is entered. -/
def isTransient : Status → Bool
  | migrating | restoring | joining | recovery | terminated => true
  | _ => false

/-- The loop of a node ends in a final status. -/
def isFinal : Status → Bool
  | stopped | failed => true
  | _ => false

def canChange : Status → Status → Bool
  | terminated, terminated => false
  | _, terminated => true
  | stopped, standBy => true
  | standBy, running | standBy, restoring | standBy, recovery | standBy, joining => true
  | running, migrating | running, stopped | running, failed => true
  | migrating, stopped | migrating, failed => true
  | restoring, running | restoring, failed => true
  | joining, standBy | joining, failed => true
  | recovery, restoring | recovery, failed => true
  | terminated, stopped | terminated, failed => true
  | _, _ => false

end Status

inductive StatusError
  | illegal (source target : Status)
  | ended (status : Status)
  deriving DecidableEq, Repr

def StatusError.message : StatusError → String
  | illegal source target => s!"Cannot transition from {source.name} to {target.name}"
  | ended status => s!"Runner is in terminal state: {status.name}"

/-- Allows a change, or says why not; a failed node allows none. -/
def Status.check (source target : Status) : Except StatusError Unit :=
  if source = .failed then .error (.ended source)
  else if source.canChange target then .ok ()
  else .error (.illegal source target)

theorem Status.check_eq_ok_iff {source target : Status} :
    source.check target = .ok () ↔ source ≠ .failed ∧ source.canChange target := by
  unfold Status.check
  split
  · simp_all
  · split <;> simp_all

end LiveMigration
