import LiveMigration.Json.Values
import LiveMigration.Rpc.Message

/-!
Messages as lines of JSON. A line is an envelope with the tag of the message and its body,
whose members are in the order of their keys. Decoding goes through the checks by which
messages are built, so what is decoded is well formed; a line that is no text is no message.
-/

namespace LiveMigration.Rpc

open Json

def writablePath (form : Form) (p : Path) : Except RpcError String :=
  match p.text? with
  | some s => .ok s
  | none => .error (.malformed form .unwritablePath)

def Message.body : Message → Except RpcError Tree
  | .join m => do
    let dumpPath ← writablePath .join m.dumpPath
    return record [
      ("dump_path", text dumpPath),
      ("file_transfer_port", natural m.filePort.number.toNat),
      ("rpc_port", natural m.rpcPort.number.toNat)]
  | .joinAck m => .ok (record [("container_id", text m.container.text)])
  | .ping => .ok .null
  | .migrate m => do
    let bundle ← writablePath .migrate m.bundle
    return record [
      ("bundle_path", text bundle),
      ("container_id", text m.container.text),
      ("dump_names", .array (m.names.map text) true)]

def Message.encode (m : Message) : Except RpcError Bytes := do
  let body ← m.body
  return write (record [("tag", text m.tag), ("body", body)])

structure Envelope where
  tag : String
  body : Tree

structure Envelope.Slots where
  tag : Option String
  body : Option Tree

/-- A body may be anything; the envelope around it is one level of nesting. -/
def Envelope.freeBody (t : Tree) : Decoded Tree := freeForm (maxDepth - 1) t

/-- Other members than the tag and the body do no harm. -/
def Envelope.take (slots : Slots) (key : String) (t : Tree) : Decoded Slots :=
  if key = "tag" then do
    return { slots with tag := ← fill "tag" slots.tag (asText t) }
  else if key = "body" then do
    return { slots with body := ← fill "body" slots.body (freeBody t) }
  else .ok slots

/-- A missing body is null. -/
def Envelope.ofTree : Tree → Decoded Envelope
  | .object members whole => do
    let slots ← foldMembers take whole ⟨none, none⟩ members
    let tag ← required "tag" slots.tag
    return ⟨tag, slots.body.getD .null⟩
  | .array items whole => do
    let (tag, items) ← nextItem whole asText items
    let (body, items) ← nextItemOr whole .null freeBody items
    noMoreItems .text whole items
    return ⟨tag, body⟩
  | t => .error (wrongType t)

structure JoinBody where
  rpcPort : UInt16
  dumpPath : String
  filePort : UInt16

structure JoinBody.Slots where
  rpcPort : Option UInt16
  dumpPath : Option String
  filePort : Option UInt16

def JoinBody.take (slots : Slots) (key : String) (t : Tree) : Decoded Slots :=
  if key = "rpc_port" then do
    return { slots with rpcPort := ← fill key slots.rpcPort (asPortNumber t) }
  else if key = "dump_path" then do
    return { slots with dumpPath := ← fill key slots.dumpPath (asText t) }
  else if key = "file_transfer_port" then do
    return { slots with filePort := ← fill key slots.filePort (asPortNumber t) }
  else .error (.unknownField key)

def JoinBody.ofTree : Tree → Decoded JoinBody
  | .object members whole => do
    let slots ← foldMembers take whole ⟨none, none, none⟩ members
    let rpcPort ← required "rpc_port" slots.rpcPort
    let dumpPath ← required "dump_path" slots.dumpPath
    let filePort ← required "file_transfer_port" slots.filePort
    return ⟨rpcPort, dumpPath, filePort⟩
  | .array items whole => do
    let (rpcPort, items) ← nextItem whole asPortNumber items
    let (dumpPath, items) ← nextItem whole asText items
    let (filePort, items) ← nextItem whole asPortNumber items
    noMoreItems .memory whole items
    return ⟨rpcPort, dumpPath, filePort⟩
  | t => .error (wrongType t)

def containerIdOfTree : Tree → Decoded String
  | .object members whole => do
    let slot ← foldMembers (fun slot key t =>
      if key = "container_id" then fill key slot (asText t)
      else .error (.unknownField key)) whole none members
    required "container_id" slot
  | .array items whole => do
    let (id, items) ← nextItem whole asText items
    noMoreItems .memory whole items
    return id
  | t => .error (wrongType t)

structure MigrateBody where
  names : List String
  container : String
  bundle : String

structure MigrateBody.Slots where
  names : Option (List String)
  container : Option String
  bundle : Option String

def asTexts : Tree → Decoded (List String)
  | .array items whole => do
    let names ← items.mapM asText
    if whole then return names else .error .broken
  | t => .error (wrongType t)

def MigrateBody.take (slots : Slots) (key : String) (t : Tree) : Decoded Slots :=
  if key = "dump_names" then do
    return { slots with names := ← fill key slots.names (asTexts t) }
  else if key = "container_id" then do
    return { slots with container := ← fill key slots.container (asText t) }
  else if key = "bundle_path" then do
    return { slots with bundle := ← fill key slots.bundle (asText t) }
  else .error (.unknownField key)

def MigrateBody.ofTree : Tree → Decoded MigrateBody
  | .object members whole => do
    let slots ← foldMembers take whole ⟨none, none, none⟩ members
    let names ← required "dump_names" slots.names
    let container ← required "container_id" slots.container
    let bundle ← required "bundle_path" slots.bundle
    return ⟨names, container, bundle⟩
  | .array items whole => do
    let (names, items) ← nextItem whole asTexts items
    let (container, items) ← nextItem whole asText items
    let (bundle, items) ← nextItem whole asText items
    noMoreItems .memory whole items
    return ⟨names, container, bundle⟩
  | t => .error (wrongType t)

def decodedAs (form : Form) (r : Decoded α) : Except RpcError α :=
  r.mapError fun e => .malformed form (.undecodable e)

/-- The message in an envelope; its tag says how the body is read. -/
def Message.ofEnvelope (e : Envelope) : Except RpcError Message :=
  if e.tag = Form.join.name then do
    let b ← decodedAs .join (JoinBody.ofTree e.body)
    return .join (← Join.new b.rpcPort (.ofText b.dumpPath) b.filePort)
  else if e.tag = Form.joinAck.name then do
    let id ← decodedAs .joinAck (containerIdOfTree e.body)
    return .joinAck (← JoinAck.new id)
  else if e.tag = Form.ping.name then .ok .ping
  else if e.tag = Form.migrate.name then do
    let b ← decodedAs .migrate (MigrateBody.ofTree e.body)
    return .migrate (← Migrate.new b.names b.container (.ofText b.bundle))
  else .error (.unknownTag e.tag)

def Message.decode (line : Bytes) : Except RpcError Message :=
  if (Bytes.text? line).isNone then .error (.malformed .envelope (.undecodable .broken))
  else do
    let envelope ← decodedAs .envelope (decodeText Envelope.ofTree line)
    ofEnvelope envelope

end LiveMigration.Rpc
