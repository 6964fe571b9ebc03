import LiveMigration.Chain.Basic
import LiveMigration.ContainerId
import LiveMigration.Status

/-!
The register of a node: everything that is read and written under its lock. Of the targets
there is a second copy, which may be read without the lock; every change to the targets
renews it.
-/

namespace LiveMigration

structure Register where
  status : Status
  changes : Nat
  container : Option ContainerId
  bundle : Option Path
  /-- The dumps since the last full dump. -/
  chain : Chain
  /-- The chain that the last full dump closed; it is still sent to targets that miss some of it. -/
  closed : Option Chain
  targets : List Target
  /-- The copy of the targets for readers without the lock. -/
  published : List Target
  source : Option String
  /-- Whether the process of the container is alive. -/
  live : Bool
  /-- Whether a join is in progress that an acknowledgement may complete. -/
  joining : Bool
  /-- The container that such an acknowledgement named. -/
  announced : Option ContainerId
  deriving DecidableEq, Repr

namespace Register

def initial : Register where
  status := .stopped
  changes := 0
  container := none
  bundle := none
  chain := .empty
  closed := none
  targets := []
  published := []
  source := none
  live := false
  joining := false
  announced := none

def changeStatus (r : Register) (target : Status) : Except StatusError Register :=
  (r.status.check target).map fun _ => { r with status := target, changes := r.changes + 1 }

def changeStatusFrom (r : Register) (source target : Status) :
    Except StatusError (Bool × Register) :=
  if r.status = source then (r.changeStatus target).map (true, ·) else .ok (false, r)

def setTargets (r : Register) (targets : List Target) : Register :=
  { r with targets, published := targets }

def hasTarget (r : Register) (key : String) : Bool := r.targets.any (·.key == key)

/-- Registers a target behind the others, unless its key is registered; tells whether it was
new. -/
def addTarget (r : Register) (t : Target) : Bool × Register :=
  if r.hasTarget t.key then (false, r) else (true, r.setTargets (r.targets ++ [t]))

def removeTarget (r : Register) (key : String) : Option Target × Register :=
  match r.targets.find? (·.key == key) with
  | some t => (some t, r.setTargets (r.targets.eraseP (·.key == key)))
  | none => (none, r)

def closeChain (r : Register) : Register := { r with chain := .empty, closed := some r.chain }

def push (r : Register) (d : Dump) : Register := { r with chain := r.chain.push d }

end Register

end LiveMigration
