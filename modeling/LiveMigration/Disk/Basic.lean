import LiveMigration.Disk.Lookup

/-!
A disk and the operations that a node performs on it. Every change goes through `change`,
which also notes it in the journal; an operation that fails has changed nothing, except that
`createDirectories` keeps the directories it made before it failed.
-/

namespace LiveMigration

inductive Change
  | put (l : Location) (e : Entry)
  | erase (l : Location)
  deriving DecidableEq, Repr

def FileTree.apply (t : FileTree) : Change → FileTree
  | .put l e => t.put l e
  | .erase l => t.erase l

structure Disk where
  tree : FileTree
  /-- Where relative paths start. -/
  cwd : Location
  /-- All changes made so far, oldest first. -/
  journal : List Change
  deriving DecidableEq, Repr

namespace Disk

def ofTree (tree : FileTree) (cwd : Location) : Disk := ⟨tree, cwd, []⟩

def change (d : Disk) (c : Change) : Disk :=
  { d with tree := d.tree.apply c, journal := d.journal ++ [c] }

open FileTree (Found)

/-- Where a path leads, a link at its end being followed. -/
def find (d : Disk) (path : Path) : Except Fault Found := d.tree.find d.cwd true path

/-- Where a path leads, a link at its end being an entry itself. -/
def findEntry (d : Disk) (path : Path) : Except Fault Found := d.tree.find d.cwd false path

def fail {α : Type} (e : OsError) : Except Fault α := .error (.os e)

def inspect (d : Disk) (path : Path) : Except Fault Entry :=
  match d.find path with
  | .ok (.present _ e) => .ok e
  | .ok (.free _) => fail .noSuchEntry
  | .error f => .error f

/-- What stands at a path itself, be it a link. -/
def inspectEntry (d : Disk) (path : Path) : Except Fault Entry :=
  match d.findEntry path with
  | .ok (.present _ e) => .ok e
  | .ok (.free _) => fail .noSuchEntry
  | .error f => .error f

def isThere (d : Disk) (path : Path) : Bool := (d.inspect path).isOk

def isDirectory (d : Disk) (path : Path) : Bool :=
  match d.inspect path with
  | .ok .directory => true
  | _ => false

def readFile (d : Disk) (path : Path) : Except Fault Bytes :=
  match d.inspect path with
  | .ok (.file content) => .ok content
  | .ok .directory => fail .isDirectory
  | .ok _ => fail .noSuchDevice
  | .error f => .error f

/-- The names in a directory and what they stand for, links not being followed. -/
def list (d : Disk) (path : Path) : Except Fault (List (Bytes × Entry)) :=
  match d.find path with
  | .ok (.present l .directory) => .ok (d.tree.children l)
  | .ok (.present _ _) => fail .notDirectory
  | .ok (.free _) => fail .noSuchEntry
  | .error f => .error f

/-- A slash at the end of a new directory's name is no matter. -/
def withoutSlash (path : Path) : Path :=
  if path.bytes.all (· == Path.slash) then path
  else ⟨(path.bytes.reverse.dropWhile (· == Path.slash)).reverse⟩

def createDirectory (d : Disk) (path : Path) : Except Fault Disk :=
  match d.findEntry (withoutSlash path) with
  | .ok (.free l) => .ok (d.change (.put l .directory))
  | .ok (.present _ _) => fail .alreadyExists
  | .error f => .error f

def ensureDirectory (d : Disk) (path : Path) : Except Fault Unit × Disk :=
  match d.createDirectory path with
  | .ok d => (.ok (), d)
  | .error f => (if d.isDirectory path then .ok () else .error f, d)

/-- Goes outward until a directory can be made, then inward again. -/
def createOutward : Nat → Disk → Path → Except Fault Unit × Disk
  | 0, d, _ => (fail .noSuchEntry, d)
  | fuel + 1, d, path =>
    if path.isEmpty then (.ok (), d)
    else
      match d.createDirectory path with
      | .error (.os .noSuchEntry) =>
        match path.parent? with
        | none => (fail .noSuchEntry, d)
        | some outer =>
          match createOutward fuel d outer with
          | (.ok (), d) => d.ensureDirectory path
          | (.error f, d) => (.error f, d)
      | _ => d.ensureDirectory path

/-- Makes a directory and those it lies in, as far as they are missing. -/
def createDirectories (d : Disk) (path : Path) : Except Fault Unit × Disk :=
  createOutward (path.bytes.length + 1) d path

/-- Makes a file empty, or makes an empty one; the location is what is written to. -/
def createFile (d : Disk) (path : Path) : Except Fault (Location × Disk) :=
  match d.find path with
  | .ok (.free l) | .ok (.present l (.file _)) => .ok (l, d.change (.put l (.file [])))
  | .ok (.present _ .directory) => fail .isDirectory
  | .ok (.present _ _) => fail .noSuchDevice
  | .error f => .error f

def append (d : Disk) (l : Location) (bytes : Bytes) : Disk :=
  match d.tree.get? l with
  | some (.file content) => d.change (.put l (.file (content ++ bytes)))
  | _ => d

def removeFile (d : Disk) (path : Path) : Except Fault Disk :=
  match d.findEntry path with
  | .ok (.present _ .directory) => fail .isDirectory
  | .ok (.present l _) => .ok (d.change (.erase l))
  | .ok (.free _) => fail .noSuchEntry
  | .error f => .error f

/-- Moves an entry that is no directory; it replaces what is no directory either. -/
def renameFile (d : Disk) (source target : Path) : Except Fault Disk :=
  match d.findEntry source, d.findEntry target with
  | .ok (.present _ .directory), .ok _ => fail .isDirectory
  | .ok (.present _ _), .ok (.present _ .directory) => fail .isDirectory
  | .ok (.present l e), .ok (.present l' _) | .ok (.present l e), .ok (.free l') =>
    if l = l' then .ok d else .ok ((d.change (.put l' e)).change (.erase l))
  | .ok (.free _), .ok _ => fail .noSuchEntry
  | .error f, _ => .error f
  | _, .error f => .error f

def createLink (d : Disk) (target : Bytes) (path : Path) : Except Fault Disk :=
  if target.contains 0 then .error .zeroByte
  else if target.isEmpty then fail .noSuchEntry
  else if FileTree.maxPath < target.length then fail .nameTooLong
  else
    match d.findEntry path with
    | .ok (.free l) => .ok (d.change (.put l (.link target)))
    | .ok (.present _ _) => fail .alreadyExists
    | .error f => .error f

/-- Puts an entry at a path, and the directories it lies in, as far as that is possible. -/
def plant (d : Disk) (path : Path) (e : Entry) : Disk :=
  let inside := match path.parent? with
    | some outer => (d.createDirectories outer).2
    | none => d
  match e with
  | .directory => (d.createDirectories path).2
  | .file content =>
    match inside.createFile path with
    | .ok (l, d) => d.append l content
    | .error _ => inside
  | .link target => (inside.createLink target path).toOption.getD inside
  | .special => inside

/-- Removes a directory with all it holds; of a link, only the link. -/
def removeAll (d : Disk) (path : Path) : Except Fault Disk :=
  match d.findEntry path with
  | .ok (.present l .directory) =>
    .ok ((d.tree.below l).reverse.foldl (fun d (k, _) => d.change (.erase k)) d
      |>.change (.erase l))
  | .ok (.present l (.link _)) => .ok (d.change (.erase l))
  | .ok (.present _ _) => fail .notDirectory
  | .ok (.free _) => fail .noSuchEntry
  | .error f => .error f

def maxSocketPath : Nat := 107

def bindSocket (d : Disk) (path : Path) : Except Fault Disk :=
  if path.bytes.contains 0 then .error .zeroByteInSocketPath
  else if maxSocketPath < path.bytes.length then .error .longSocketPath
  else
    match d.findEntry path with
    | .ok (.free l) => .ok (d.change (.put l .special))
    | .ok (.present _ _) => fail .addressInUse
    | .error f => .error f

/-- Whether bytes come before others; a beginning comes first. -/
def bytesBefore : Bytes → Bytes → Bool
  | _, [] => false
  | [], _ :: _ => true
  | a :: as, b :: bs => if a = b then bytesBefore as bs else decide (a < b)

/-- Everything below a location, by paths relative to it and in their order. -/
def listing (d : Disk) (l : Location) : List (Bytes × Entry) :=
  ((d.tree.below l).map fun (k, e) =>
    (Bytes.joinWith Path.slash (k.drop l.length), e)).mergeSort
      fun a b => !bytesBefore b.1 a.1

end Disk

end LiveMigration
