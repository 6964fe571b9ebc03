import LiveMigration.Text.Bytes

/-!
File paths. A path is a byte string cut into names by slashes. Empty names and `.` do not
count as components, except that a relative path may begin with `.`; `..` is a component
but names no file.
-/

namespace LiveMigration

structure Path where
  bytes : Bytes
  deriving DecidableEq, Repr

namespace Path

def slash : UInt8 := 0x2F

def dot : Bytes := [0x2E]

def dotDot : Bytes := [0x2E, 0x2E]

def ofText (s : String) : Path := ⟨Bytes.ofText s⟩

def display (p : Path) : String := Bytes.display p.bytes

def text? (p : Path) : Option String := Bytes.text? p.bytes

def isEmpty (p : Path) : Bool := p.bytes.isEmpty

def isAbsolute (p : Path) : Bool := p.bytes.head? = some slash

/-- The pieces between the slashes, empty ones included. -/
def pieces (p : Path) : List Bytes := Bytes.splitOn slash p.bytes

def isFiller (piece : Bytes) : Bool := piece.isEmpty || piece == dot

/-- Drops the trailing pieces that are no components. The first piece stands for the root
or for a leading `.` and stays. -/
def trimPieces : List Bytes → List Bytes
  | [] => []
  | first :: rest => first :: (rest.reverse.dropWhile isFiller).reverse

/-- The last name of the path, unless that is `..` or the path has none. -/
def fileName? (p : Path) : Option Bytes :=
  match (trimPieces p.pieces).getLast? with
  | some piece => if isFiller piece ∨ piece = dotDot then none else some piece
  | none => none

/-- What is left without the last component; none for a root and for the empty path. -/
def parent? (p : Path) : Option Path :=
  match trimPieces p.pieces with
  | [] => none
  | [only] => if only.isEmpty then none else some ⟨[]⟩
  | components =>
    match trimPieces components.dropLast with
    | [[]] => some ⟨[slash]⟩
    | kept => some ⟨Bytes.joinWith slash kept⟩

/-- The second path as seen from the first; an absolute one stands for itself. -/
def join (base : Path) (rest : Bytes) : Path :=
  if rest.head? = some slash ∨ base.bytes.isEmpty then ⟨rest⟩
  else if base.bytes.getLast? = some slash then ⟨base.bytes ++ rest⟩
  else ⟨base.bytes ++ slash :: rest⟩

def joinText (base : Path) (rest : String) : Path := base.join (Bytes.ofText rest)

end Path

end LiveMigration
