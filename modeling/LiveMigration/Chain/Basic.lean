import LiveMigration.Dump.Name
import LiveMigration.Target

/-!
Chains of dumps. A chain holds the dumps since the last full dump, oldest first, each with
the keys of the targets that are known to hold it. The predecessor of a dump is the one
before it in the chain.
-/

namespace LiveMigration

/-- One dump of a chain and the targets that hold it. -/
structure Link where
  dump : Dump
  heldBy : List String
  deriving DecidableEq, Repr

def Link.isHeldBy (l : Link) (key : String) : Bool := l.heldBy.contains key

def Link.isSynced (l : Link) : Bool := !l.heldBy.isEmpty

def Link.mark (l : Link) (key : String) : Link :=
  if l.isHeldBy key then l else { l with heldBy := l.heldBy ++ [key] }

structure Chain where
  links : List Link
  deriving DecidableEq, Repr

namespace Chain

def empty : Chain := ⟨[]⟩

instance : Inhabited Chain := ⟨empty⟩

def isEmpty (c : Chain) : Bool := c.links.isEmpty

def length (c : Chain) : Nat := c.links.length

def push (c : Chain) (d : Dump) : Chain := ⟨c.links ++ [⟨d, []⟩]⟩

def dumps (c : Chain) : List Dump := c.links.map Link.dump

def latestLink? (c : Chain) : Option Link := c.links.getLast?

def latest? (c : Chain) : Option Dump := c.latestLink?.map Link.dump

def names (c : Chain) : List String := c.dumps.map Dump.name

/-- Gives each dump its distance from the last full dump, the first one being at `start`. -/
def withOffsets (start : UInt64) : List Dump → List Dump
  | [] => []
  | d :: ds =>
    let d := d.withOffset start
    d :: withOffsets (d.offset + 1) ds

/-- The chain of some dumps given oldest first; their offsets are worked out anew. -/
def ofDumps (ds : List Dump) : Chain := ⟨(withOffsets 0 ds).map (⟨·, []⟩)⟩

@[simp] theorem dumps_push (c : Chain) (d : Dump) : (c.push d).dumps = c.dumps ++ [d] := by
  simp [push, dumps]

@[simp] theorem dumps_ofDumps (ds : List Dump) : (ofDumps ds).dumps = withOffsets 0 ds := by
  simp [ofDumps, dumps, Function.comp_def]

end Chain

end LiveMigration
