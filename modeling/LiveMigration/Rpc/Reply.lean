import LiveMigration.Json.Writer
import LiveMigration.Rpc.Error

/-!
Replies. A reply is an object whose member `reply` says which one it is; the others are its
fields. Fields that no reply has are ignored, and so is whatever comes with an
acknowledgement.
-/

namespace LiveMigration.Rpc

open Json

inductive Reply
  | ack
  /-- The sender is replicated to from now on; this is the container. -/
  | joined (container : String)
  | error (reason : String)
  deriving DecidableEq, Repr

namespace Reply

def toTree : Reply → Tree
  | ack => record [("reply", text "ack")]
  | joined container => record [("reply", text "joined"), ("container_id", text container)]
  | error reason => record [("reply", text "error"), ("reason", text reason)]

def encode (r : Reply) : Bytes := write r.toTree

inductive Kind
  | ack
  | joined
  | error
  deriving DecidableEq, Repr

def asKind (t : Tree) : Decoded Kind := do
  let name ← asText t
  if name = "ack" then return .ack
  else if name = "joined" then return .joined
  else if name = "error" then return .error
  else .error (.unknownVariant name)

/-- What is read before the kind of the reply is known. -/
structure Slots where
  kind : Option Kind
  others : List (String × Tree)

def take (slots : Slots) (key : String) (t : Tree) : Decoded Slots :=
  if key = "reply" then do
    return { slots with kind := ← fill key slots.kind (asKind t) }
  else do
    return { slots with others := slots.others ++ [(key, ← buffered (maxDepth - 1) t)] }

/-- The only field of a reply, which other members may surround. -/
def fieldOf (name : String) (members : List (String × Tree)) : Decoded String := do
  let slot ← members.foldlM (fun slot (key, t) =>
    if key = name then fill name slot (asText t) else pure slot) none
  required name slot

def fieldOfItems (items : List Tree) : Decoded String := do
  let (field, items) ← nextItem true asText items
  noMoreItems .memory true items
  return field

def ofTree : Tree → Decoded Reply
  | .object members whole => do
    let slots ← foldMembers take whole ⟨none, []⟩ members
    match ← required "reply" slots.kind with
    | .ack => return ack
    | .joined => return joined (← fieldOf "container_id" slots.others)
    | .error => return error (← fieldOf "reason" slots.others)
  | .array [] whole => .error (if whole then .missingField "reply" else .broken)
  | .array (t :: items) whole => do
    let kind ← asKind t
    let items ← checkItems (buffered (maxDepth - 1)) whole items
    match kind with
    | .ack => do
      noMoreItems .memory true items
      return ack
    | .joined => return joined (← fieldOfItems items)
    | .error => return error (← fieldOfItems items)
  | t => .error (wrongType t)

def decode (line : Bytes) : Decoded Reply := decodeText ofTree line

end Reply

end LiveMigration.Rpc
