import LiveMigration.Digest.Crc32
import LiveMigration.Lineage
import LiveMigration.Transfer.Frame

/-!
The sending end of a transfer. The directory of a dump is sent entry by entry: every file
with its size and checksum, and the link to the dump it builds on. Entries of other kinds
and names that are no text are left out. The dump has arrived when the receiver says so.
-/

namespace LiveMigration.Transfer

/-- What an entry of a dump directory is sent as: a header and the bytes behind it. -/
def parcelOf (dump : Dump) (before : Option Dump) (entry : Bytes × Entry) :
    Option (Header × Bytes) := do
  let name ← Bytes.text? entry.1
  match entry.2 with
  | .file content =>
    some (.file dump.name name (UInt64.ofNat content.length) (Crc32.ofBytes content), content)
  | .link target =>
    if name = Lineage.linkName then
      let pointsTo := match before with
        | some d => d.parentPath
        | none => Bytes.display target
      some (.parentLink dump.name pointsTo, [])
    else none
  | _ => none

def parcels (dump : Dump) (before : Option Dump) (entries : List (Bytes × Entry)) :
    List (Header × Bytes) :=
  entries.filterMap (parcelOf dump before) ++ [(.done dump.name, [])]

/-- What a sender writes, and the fault of its own that ended it early. -/
structure Outflow where
  bytes : Bytes
  result : Except TransferError Unit

/-- Writes headers and contents up to the first header that cannot be written. -/
def writeAll (auth : Auth) : List (Header × Bytes) → Outflow
  | [] => ⟨[], .ok ()⟩
  | (header, content) :: rest =>
    match writeHeader auth header with
    | .error e => ⟨[], .error e⟩
    | .ok frame =>
      let out := writeAll auth rest
      ⟨frame ++ content ++ out.bytes, out.result⟩

def outflow (auth : Auth) (root : Path) (disk : Disk) (dump : Dump) (before : Option Dump) :
    Outflow :=
  match disk.list (dump.pathIn root) with
  | .error fault => ⟨[], .error (.io .listing fault)⟩
  | .ok entries => writeAll auth (parcels dump before entries)

/-- What the network does with a connection: given its address and all that is written to
it, the step that met a fault, or what came back. -/
abbrev Wire (σ : Type) := String → Bytes → σ → Except (Step × Fault) Bytes × σ

def verdictOf (dump : Dump) (answer : Bytes) : Except TransferError Unit := do
  let (verdict, _) ← readAs Verdict.ofTree [answer]
  if verdict.ok then return ()
  else .error (.rejected dump.name (verdict.reason.getD "no reason given"))

def sendDump (wire : Wire σ) (auth : Auth) (root : Path) (disk : Disk) (target : Target)
    (dump : Dump) (before : Option Dump) (s : σ) : Except TransferError Unit × σ :=
  let out := outflow auth root disk dump before
  match wire target.fileAddress out.bytes s with
  | (.error (step, fault), s) => (.error (.io step fault), s)
  | (.ok answer, s) =>
    match out.result with
    | .error e => (.error e, s)
    | .ok () => (verdictOf dump answer, s)

end LiveMigration.Transfer
