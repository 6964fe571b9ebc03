import LiveMigration.Digest.Hex
import LiveMigration.Digest.Sha256
import LiveMigration.Json.Values
import LiveMigration.Json.Writer
import LiveMigration.Transfer.Error

/-!
The headers by which a dump is sent: one for each file, one for the link to the dump it
builds on, and one for the end. Under a shared secret every header comes with a seal, a code
of its written form that only those who know the secret can make. A header is sealed and
checked in the form in which it would be written, whatever the form in which it came.
-/

namespace LiveMigration.Transfer

open Json

inductive Header
  /-- A file of the dump; as many bytes as it says follow the header. -/
  | file (dump name : String) (size : UInt64) (checksum : UInt32)
  | parentLink (dump pointsTo : String)
  | done (dump : String)
  deriving DecidableEq, Repr

namespace Header

def toTree : Header → Tree
  | file dump name size checksum => record [("kind", text "file"), ("dump", text dump),
      ("name", text name), ("size", natural size.toNat), ("crc32", natural checksum.toNat)]
  | parentLink dump pointsTo => record [("kind", text "parent_link"), ("dump", text dump),
      ("points_to", text pointsTo)]
  | done dump => record [("kind", text "done"), ("dump", text dump)]

/-- The form that is sealed. -/
def encode (h : Header) : Bytes := write h.toTree

inductive Kind
  | file
  | parentLink
  | done
  deriving DecidableEq, Repr

def asKind (t : Tree) : Decoded Kind := do
  let name ← asText t
  if name = "file" then return .file
  else if name = "parent_link" then return .parentLink
  else if name = "done" then return .done
  else .error (.unknownVariant name)

structure Slots where
  kind : Option Kind
  others : List (String × Tree)

/-- A header stands inside a frame, so its members are nested two deep. -/
def take (slots : Slots) (key : String) (t : Tree) : Decoded Slots :=
  if key = "kind" then do
    return { slots with kind := ← fill key slots.kind (asKind t) }
  else do
    return { slots with others := slots.others ++ [(key, ← buffered (maxDepth - 2) t)] }

def asSize (t : Tree) : Decoded UInt64 := (asNatural UInt64.size t).map UInt64.ofNat

def asChecksum (t : Tree) : Decoded UInt32 := (asNatural UInt32.size t).map UInt32.ofNat

structure FileSlots where
  dump : Option String
  name : Option String
  size : Option UInt64
  checksum : Option UInt32

def takeFile (slots : FileSlots) (key : String) (t : Tree) : Decoded FileSlots :=
  if key = "dump" then do
    return { slots with dump := ← fill key slots.dump (asText t) }
  else if key = "name" then do
    return { slots with name := ← fill key slots.name (asText t) }
  else if key = "size" then do
    return { slots with size := ← fill key slots.size (asSize t) }
  else if key = "crc32" then do
    return { slots with checksum := ← fill key slots.checksum (asChecksum t) }
  else .ok slots

structure LinkSlots where
  dump : Option String
  pointsTo : Option String

def takeLink (slots : LinkSlots) (key : String) (t : Tree) : Decoded LinkSlots :=
  if key = "dump" then do
    return { slots with dump := ← fill key slots.dump (asText t) }
  else if key = "points_to" then do
    return { slots with pointsTo := ← fill key slots.pointsTo (asText t) }
  else .ok slots

def takeDone (slot : Option String) (key : String) (t : Tree) : Decoded (Option String) :=
  if key = "dump" then fill key slot (asText t) else .ok slot

def ofMembers (members : List (String × Tree)) : Kind → Decoded Header
  | .file => do
    let slots ← members.foldlM (fun s (key, t) => takeFile s key t) ⟨none, none, none, none⟩
    let dump ← required "dump" slots.dump
    let name ← required "name" slots.name
    let size ← required "size" slots.size
    let checksum ← required "crc32" slots.checksum
    return file dump name size checksum
  | .parentLink => do
    let slots ← members.foldlM (fun s (key, t) => takeLink s key t) ⟨none, none⟩
    let dump ← required "dump" slots.dump
    let pointsTo ← required "points_to" slots.pointsTo
    return parentLink dump pointsTo
  | .done => do
    let slot ← members.foldlM (fun s (key, t) => takeDone s key t) none
    return done (← required "dump" slot)

/-- A header may also be an array: its kind, and then its fields. -/
def ofItems (items : List Tree) : Kind → Decoded Header
  | .file => do
    let (dump, items) ← nextItem true asText items
    let (name, items) ← nextItem true asText items
    let (size, items) ← nextItem true asSize items
    let (checksum, items) ← nextItem true asChecksum items
    noMoreItems .memory true items
    return file dump name size checksum
  | .parentLink => do
    let (dump, items) ← nextItem true asText items
    let (pointsTo, items) ← nextItem true asText items
    noMoreItems .memory true items
    return parentLink dump pointsTo
  | .done => do
    let (dump, items) ← nextItem true asText items
    noMoreItems .memory true items
    return done dump

def ofTree : Tree → Decoded Header
  | .object members whole => do
    let slots ← foldMembers take whole ⟨none, []⟩ members
    ofMembers slots.others (← required "kind" slots.kind)
  | .array [] whole => .error (if whole then .missingField "kind" else .broken)
  | .array (t :: items) whole => do
    let kind ← asKind t
    let items ← checkItems (buffered (maxDepth - 2)) whole items
    ofItems items kind
  | t => .error (wrongType t)

end Header

/-- The code that seals headers, if there is a shared secret. -/
abbrev Auth := Option (Bytes → Bytes)

namespace Auth

def ofSecret (secret : Option String) : Auth :=
  secret.map fun s => hmacSha256 (Bytes.ofText s)

def tag (auth : Auth) (h : Header) : Option String := auth.map fun code => Hex.encode (code h.encode)

/-- Whether a header may be acted on; without a secret any header may. -/
def accepts (auth : Auth) (h : Header) (tag : Option String) : Bool :=
  match auth with
  | none => true
  | some code => tag.bind Hex.decode? = some (code h.encode)

theorem accepts_iff {code : Bytes → Bytes} {h : Header} {tag : Option String} :
    accepts (some code) h tag ↔ ∃ t, tag = some t ∧ Hex.decode? t = some (code h.encode) := by
  cases tag <;> simp [accepts]

end Auth

end LiveMigration.Transfer
