import LiveMigration.Chain.Basic
import LiveMigration.Disk.Basic

/-!
Finding dumps again on a disk. Every dump is a directory of the dump root that carries its
name; a symbolic link `parent` in it names the dump it builds on. A node recovers from the
full dump with the highest sequence number and follows the links back to the beginning of
its chain.
-/

namespace LiveMigration

inductive ScanError
  | noFullDump (root : Path)
  | unreadable (root : Path) (fault : Fault)
  deriving DecidableEq, Repr

def ScanError.message : ScanError → String
  | noFullDump root => "No full dump found to recover from in " ++ root.display
  | unreadable root fault =>
    s!"Failed to scan dump directory {root.display}: " ++ fault.message

inductive LineageError
  /-- There is something else than a link to a dump. -/
  | corrupt (place : Path)
  | unreadable (place : Path) (fault : Fault)
  | dangling (link : Path)
  | cycle (link : Path)
  | badName (place : Path) (e : Dump.NameError)
  | empty
  deriving DecidableEq, Repr

def LineageError.message : LineageError → String
  | corrupt place =>
    s!"Corrupt chain at {place.display}: 'parent' exists but is not a symlink"
  | unreadable place fault =>
    s!"Failed to read chain link at {place.display}: " ++ fault.message
  | dangling link => s!"Chain link at {link.display} points at a missing dump"
  | cycle link => s!"Chain link at {link.display} loops back into the chain"
  | badName place e => s!"Chain link at {place.display} does not name a dump: " ++ e.message
  | empty => "Chain is empty"

def Dump.pathIn (d : Dump) (root : Path) : Path := root.joinText d.name

namespace Lineage

def linkName : String := "parent"

/-- The full dump that an entry of the dump root is, if it is one. -/
def fullDump? : Bytes × Entry → Option Dump
  | (name, .directory) =>
    match (Bytes.text? name).map Dump.ofName with
    | some (.ok d) => if d.isFull then some d else none
    | _ => none
  | _ => none

/-- The one of higher sequence; the first one stays if they are equal. -/
def later (best : Option Dump) (d : Dump) : Option Dump :=
  match best with
  | some b => if b.sequence < d.sequence then some d else some b
  | none => some d

def latestFull (entries : List (Bytes × Entry)) : Option Dump :=
  (entries.filterMap fullDump?).foldl later none

def recover (d : Disk) (root : Path) : Except ScanError Dump :=
  match d.list root with
  | .error fault => .error (.unreadable root fault)
  | .ok entries =>
    match latestFull entries with
    | some dump => .ok dump
    | none => .error (.noFullDump root)

/-- The canonical name that a path ends in. -/
def dumpName (path place : Path) : Except LineageError String :=
  match path.fileName?.bind Bytes.text? with
  | none => .error (.corrupt place)
  | some name =>
    match Dump.ofName name with
    | .ok _ => .ok name
    | .error e => .error (.badName place e)

def sibling (dir : Path) (name : String) : Path :=
  match dir.parent? with
  | some root => root.joinText name
  | none => .ofText name

/-- The name of the dump that the one in a directory builds on, if it builds on any. -/
def predecessor (d : Disk) (dir : Path) : Except LineageError (Option String) :=
  let link := dir.joinText linkName
  match d.inspectEntry link with
  | .error (.os .noSuchEntry) => .ok none
  | .error fault => .error (.unreadable link fault)
  | .ok (.link target) => do
    let name ← dumpName ⟨target⟩ link
    if d.isDirectory (sibling dir name) then return some name
    else .error (.dangling link)
  | .ok _ => .error (.corrupt link)

/-- Goes back from a directory; `names` has its own name first and then those of the dumps
that were passed before, latest last. -/
def walk (d : Disk) : Nat → Path → List String → Except LineageError (List String)
  | 0, dir, _ => .error (.cycle (dir.joinText linkName))
  | fuel + 1, dir, names => do
    match ← predecessor d dir with
    | none => return names
    | some name =>
      if names.contains name then .error (.cycle (dir.joinText linkName))
      else walk d fuel (sibling dir name) (name :: names)

/-- The names of the chain that ends in a dump directory, oldest first. Every step leads to
another directory of the tree, so there are at most as many as it has entries. -/
def reconstruct (d : Disk) (dir : Path) : Except LineageError (List String) := do
  let name ← dumpName dir dir
  walk d (d.tree.entries.length + 1) dir [name]

end Lineage

end LiveMigration
