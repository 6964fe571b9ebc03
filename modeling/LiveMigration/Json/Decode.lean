import LiveMigration.Json.Tree
import LiveMigration.DecodeError

/-!
Decoding JSON into typed values. A record may be written as an object or as the array of its
fields; the first fault in the order of the text is the one reported. A free-form value is
checked as a whole; from then on it is decoded from memory, where its members are in the
order of their keys and the last of several equal keys counts.
-/

namespace LiveMigration.Json

def wrongType : Tree → DecodeError
  | .broken | .string none | .number .beyond => .broken
  | _ => .invalidType

def asText : Tree → Decoded String
  | .string (some s) => .ok s
  | t => .error (wrongType t)

def asBool : Tree → Decoded Bool
  | .bool b => .ok b
  | t => .error (wrongType t)

/-- An integer from zero up to below `bound`. -/
def asNatural (bound : Nat) : Tree → Decoded Nat
  | .number (.natural n) => if n < bound then .ok n else .error .invalidValue
  | .number (.negative _) => .error .invalidValue
  | t => .error (wrongType t)

def asOptional (decode : Tree → Decoded α) : Tree → Decoded (Option α)
  | .null => .ok none
  | t => (decode t).map some

/-- Nesting allowed in a text, the outermost container included. -/
def maxDepth : Nat := 127

/-- Inserts in the order of the keys; an equal key is replaced. -/
def insertMember (key : String) (v : Tree) :
    List (Option String × Tree) → List (Option String × Tree)
  | [] => [(some key, v)]
  | (none, w) :: rest => (none, w) :: insertMember key v rest
  | (some k, w) :: rest =>
    if k = key then (some key, v) :: rest
    else if key < k then (some key, v) :: (some k, w) :: rest
    else (some k, w) :: insertMember key v rest

def checkItems (check : Tree → Decoded Tree) (whole : Bool) : List Tree → Decoded (List Tree)
  | [] => if whole then .ok [] else .error .broken
  | t :: rest => do
    let t ← check t
    let rest ← checkItems check whole rest
    return t :: rest

def checkMembers (check : Tree → Decoded Tree) (whole : Bool) :
    List (Option String × Tree) → Decoded (List (String × Tree))
  | [] => if whole then .ok [] else .error .broken
  | (none, _) :: _ => .error .broken
  | (some key, t) :: rest => do
    let t ← check t
    let rest ← checkMembers check whole rest
    return (key, t) :: rest

/-- A value with its members left as they are, nested at most `depth` deep. -/
def buffered : Nat → Tree → Decoded Tree
  | _, .broken | _, .string none | _, .number .beyond => .error .broken
  | 0, .array _ _ | 0, .object _ _ => .error .broken
  | depth + 1, .array items whole => do
    return .array (← checkItems (buffered depth) whole items) true
  | depth + 1, .object members whole => do
    let members ← checkMembers (buffered depth) whole members
    return .object (members.map fun (key, t) => (some key, t)) true
  | _, t => .ok t

/-- A free-form value: members sorted by key, the last of equal ones kept. -/
def freeForm : Nat → Tree → Decoded Tree
  | _, .broken | _, .string none | _, .number .beyond => .error .broken
  | 0, .array _ _ | 0, .object _ _ => .error .broken
  | depth + 1, .array items whole => do
    return .array (← checkItems (freeForm depth) whole items) true
  | depth + 1, .object members whole => do
    let members ← checkMembers (freeForm depth) whole members
    return .object (members.foldl (fun acc (key, t) => insertMember key t acc) []) true
  | _, t => .ok t

def foldMembers (take : α → String → Tree → Decoded α) (whole : Bool) (acc : α) :
    List (Option String × Tree) → Decoded α
  | [] => if whole then .ok acc else .error .broken
  | (none, _) :: _ => .error .broken
  | (some key, t) :: rest => do
    let acc ← take acc key t
    foldMembers take whole acc rest

/-- Where an array that stands for a record is read from: behind its last field a text is
expected to end, and a value in memory to have no more items. -/
inductive Origin
  | text
  | memory
  deriving DecidableEq, Repr

def nextItem (whole : Bool) (decode : Tree → Decoded α) : List Tree → Decoded (α × List Tree)
  | t :: rest => (decode t).map (·, rest)
  | [] => .error (if whole then .invalidLength else .broken)

def nextItemOr (whole : Bool) (default : α) (decode : Tree → Decoded α) :
    List Tree → Decoded (α × List Tree)
  | t :: rest => (decode t).map (·, rest)
  | [] => if whole then .ok (default, []) else .error .broken

def noMoreItems (origin : Origin) (whole : Bool) : List Tree → Decoded Unit
  | [] => if whole then .ok () else .error .broken
  | _ :: _ => .error (if origin = .memory then .invalidLength else .broken)

def decodeText (decode : Tree → Decoded α) (text : Bytes) : Decoded α := do
  let document := Document.ofBytes text
  let v ← decode document.tree
  if document.ends then .ok v else .error .broken

end LiveMigration.Json
