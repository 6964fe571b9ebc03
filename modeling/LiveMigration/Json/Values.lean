import LiveMigration.ContainerId
import LiveMigration.Dump.Basic
import LiveMigration.Json.Decode
import LiveMigration.Json.Writer
import LiveMigration.Target

/-!
Identifiers, ports, targets and kinds of dumps as JSON. Whatever is decoded has passed the
checks of its type.
-/

namespace LiveMigration

open Json

def Json.checked (r : Except ValidationError α) : Decoded α := r.mapError .rejected

def ContainerId.ofTree (t : Tree) : Decoded ContainerId := do
  checked (ContainerId.ofText (← asText t))

def ContainerId.toTree (id : ContainerId) : Tree := Json.text id.text

def Json.asPortNumber (t : Tree) : Decoded UInt16 := (asNatural UInt16.size t).map UInt16.ofNat

def Port.ofTree (t : Tree) : Decoded Port := do
  checked (Port.ofNumber (← asPortNumber t))

def Port.toTree (p : Port) : Tree := natural p.number.toNat

def Json.asPath (t : Tree) : Decoded Path := (asText t).map .ofText

/-- Paths that are no text cannot be written. -/
def Path.toTree? (p : Path) : Option Tree := p.text?.map Json.text

def Dump.Kind.toTree (k : Dump.Kind) : Tree := Json.text k.name

namespace Target

structure Slots where
  host : Option String
  rpcPort : Option Port
  dumpPath : Option Path
  filePort : Option Port

def take (slots : Slots) (key : String) (t : Tree) : Decoded Slots :=
  if key = "host" then do
    return { slots with host := ← fill key slots.host (asText t) }
  else if key = "rpc_port" then do
    return { slots with rpcPort := ← fill key slots.rpcPort (Port.ofTree t) }
  else if key = "dump_path" then do
    return { slots with dumpPath := ← fill key slots.dumpPath (asPath t) }
  else if key = "file_transfer_port" then do
    return { slots with filePort := ← fill key slots.filePort (Port.ofTree t) }
  else .ok slots

def ofTree : Tree → Decoded Target
  | .object members whole => do
    let slots ← foldMembers take whole ⟨none, none, none, none⟩ members
    let host ← required "host" slots.host
    let rpcPort ← required "rpc_port" slots.rpcPort
    let dumpPath ← required "dump_path" slots.dumpPath
    let filePort ← required "file_transfer_port" slots.filePort
    return ⟨host, rpcPort, dumpPath, filePort⟩
  | .array items whole => do
    let (host, items) ← nextItem whole asText items
    let (rpcPort, items) ← nextItem whole Port.ofTree items
    let (dumpPath, items) ← nextItem whole asPath items
    let (filePort, items) ← nextItem whole Port.ofTree items
    noMoreItems .text whole items
    return ⟨host, rpcPort, dumpPath, filePort⟩
  | t => .error (wrongType t)

def toTree? (t : Target) : Option Tree := do
  let dumpPath ← t.dumpPath.toTree?
  return record [
    ("host", text t.host),
    ("rpc_port", t.rpcPort.toTree),
    ("dump_path", dumpPath),
    ("file_transfer_port", t.filePort.toTree)]

end Target

end LiveMigration
