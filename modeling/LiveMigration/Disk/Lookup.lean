import LiveMigration.Disk.Tree
import LiveMigration.Fault

/-!
Following a path through a file tree. Names are taken one after another; a symbolic link on
the way is replaced by its target, at most forty times, and a link at the very end only if
the caller wants that.
-/

namespace LiveMigration.FileTree

def maxName : Nat := 255

def maxPath : Nat := 4095

def maxLinks : Nat := 40

/-- Where a path leads: to an entry, or to a free place in an existing directory. -/
inductive Found
  | present (l : Location) (e : Entry)
  | free (l : Location)
  deriving DecidableEq, Repr

/-- The names of a path; a slash at its end demands a directory, as if `.` came after it. -/
def namesOf (path : Bytes) : List Bytes :=
  (Bytes.splitOn Path.slash path).filter (!·.isEmpty) ++
    if path.getLast? = some Path.slash then [Path.dot] else []

/-- How far one gets without following a link. -/
inductive Turn
  | done (found : Found)
  | failed (e : OsError)
  /-- A link in a directory, its target, and the names behind it. -/
  | link (directory : Location) (target : Bytes) (rest : List Bytes)
  deriving DecidableEq, Repr

def advance (t : FileTree) (followLast : Bool) (here : Location) : List Bytes → Turn
  | [] => .done (.present here .directory)
  | name :: rest =>
    if name = Path.dot then advance t followLast here rest
    else if name = Path.dotDot then advance t followLast here.dropLast rest
    else if maxName < name.length then .failed .nameTooLong
    else
      let place := here ++ [name]
      match t.get? place with
      | none => if rest.isEmpty then .done (.free place) else .failed .noSuchEntry
      | some .directory => advance t followLast place rest
      | some (.link target) =>
        if rest.isEmpty ∧ ¬ followLast then .done (.present place (.link target))
        else .link here target rest
      | some e => if rest.isEmpty then .done (.present place e) else .failed .notDirectory

def follow (t : FileTree) (followLast : Bool) :
    Nat → Location → List Bytes → Except OsError Found
  | 0, _, _ => .error .tooManyLinks
  | links + 1, here, names =>
    match advance t followLast here names with
    | .done found => .ok found
    | .failed e => .error e
    | .link directory target rest =>
      let start := if target.head? = some Path.slash then [] else directory
      follow t followLast links start (namesOf target ++ rest)

def find (t : FileTree) (cwd : Location) (followLast : Bool) (path : Path) :
    Except Fault Found :=
  if path.bytes.contains 0 then .error .zeroByte
  else if path.isEmpty then .error (.os .noSuchEntry)
  else if maxPath < path.bytes.length then .error (.os .nameTooLong)
  else
    (follow t followLast (maxLinks + 1) (if path.isAbsolute then [] else cwd)
      (namesOf path.bytes)).mapError .os

end LiveMigration.FileTree
