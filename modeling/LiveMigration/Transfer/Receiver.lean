import LiveMigration.Digest.Crc32
import LiveMigration.Lineage
import LiveMigration.Transfer.Frame

/-!
The receiving end of a transfer. Headers are taken one after another until the dump is done
or one of them is refused. Dump names must be canonical, file names must stay inside the
directory of the dump, and its link must point at a sibling. A file is written under a
temporary name and gets its own only after its checksum was found right.
-/

namespace LiveMigration.Transfer

structure Intake where
  disk : Disk
  stream : Inflow
  deriving DecidableEq, Repr

namespace Intake

def directoryOf (root : Path) (dump : String) : Except TransferError Path :=
  match Dump.ofName dump with
  | .ok d => .ok (d.pathIn root)
  | .error e => .error (.rejected dump e.message)

/-- A name that stays inside its directory and is not that of the link. -/
def isPlainName (name : String) : Bool :=
  !(name.isEmpty || name == "." || name == ".." || name == Lineage.linkName ||
    name.toList.contains '/' || name.toList.contains '\x00')

def checkName (name : String) : Except TransferError Unit :=
  if isPlainName name then .ok () else .error (.rejected name "not a plain file name")

def siblingName? (pointsTo : String) : Option String :=
  match pointsTo.toList with
  | '.' :: '.' :: '/' :: name => some (String.ofList name)
  | _ => none

def checkLink (pointsTo : String) : Except TransferError Unit :=
  match siblingName? pointsTo with
  | none => .error (.rejected pointsTo "parent link must be relative to the dump root")
  | some name =>
    match Dump.ofName name with
    | .ok _ => .ok ()
    | .error e => .error (.rejected pointsTo e.message)

def makeDirectory (dir : Path) (s : Intake) : Except TransferError Unit × Intake :=
  let (result, disk) := s.disk.createDirectories dir
  (result.mapError (.io .creatingDirectory), { s with disk })

/-- Where a file is until it is known to be right. -/
def temporaryName (name : String) : String := "." ++ name ++ ".part"

def chunkSize : Nat := 64 * 1024

inductive Arrived
  | whole (register : UInt32)
  | missing (bytes : Nat)
  deriving DecidableEq, Repr

/-- Writes what arrives to an open file, until so many bytes have come. -/
def takeContent (place : Location) (remaining : Nat) (register : UInt32) (s : Intake) :
    Arrived × Intake :=
  if _hr : remaining = 0 then (.whole register, s)
  else
    match s.stream.readSome (min remaining chunkSize) with
    | ([], stream) => (.missing remaining, { s with stream })
    | (b :: bytes, stream) =>
      takeContent place (remaining - (bytes.length + 1)) (Crc32.feedAll register (b :: bytes))
        ⟨s.disk.append place (b :: bytes), stream⟩
  termination_by remaining
  decreasing_by omega

theorem size_takeContent_le (place : Location) (remaining : Nat) (register : UInt32)
    (s : Intake) : (takeContent place remaining register s).2.stream.size ≤ s.stream.size := by
  fun_induction takeContent place remaining register s with
  | case1 => exact Nat.le_refl _
  | case2 remaining _ s _ stream h =>
    have := Inflow.size_readSome (min remaining chunkSize) s.stream
    rw [h] at this
    exact Nat.le.intro this
  | case3 remaining _ s _ b bytes stream h ih =>
    have := Inflow.size_readSome (min remaining chunkSize) s.stream
    rw [h] at this
    exact Nat.le_trans ih (Nat.le.intro this)

/-- Removes a temporary file; that it cannot be removed is no matter. -/
def discard (path : Path) (s : Intake) : Intake :=
  { s with disk := (s.disk.removeFile path).toOption.getD s.disk }

def receiveFile (dir : Path) (name : String) (size : UInt64) (expected : UInt32) (s : Intake) :
    Except TransferError Unit × Intake :=
  match makeDirectory dir s with
  | (.error e, s) => (.error e, s)
  | (.ok (), s) =>
    let temporary := dir.joinText (temporaryName name)
    match s.disk.createFile temporary with
    | .error fault => (.error (.io .creatingFile fault), s)
    | .ok (place, disk) =>
      match takeContent place size.toNat Crc32.start { s with disk } with
      | (.missing bytes, s) =>
        (.error (.io .receivingFile (.missing bytes name)), s.discard temporary)
      | (.whole register, s) =>
        let actual := Crc32.finish register
        if actual ≠ expected then
          (.error (.checksumMismatch name expected actual), s.discard temporary)
        else
          match s.disk.renameFile temporary (dir.joinText name) with
          | .error fault => (.error (.io .finalizing fault), s)
          | .ok disk => (.ok (), { s with disk })

/-- Makes the link of a dump, in place of one that is there. -/
def placeLink (dir : Path) (pointsTo : String) (s : Intake) :
    Except TransferError Unit × Intake :=
  match makeDirectory dir s with
  | (.error e, s) => (.error e, s)
  | (.ok (), s) =>
    let link := dir.joinText Lineage.linkName
    let cleared := match s.disk.inspectEntry link with
      | .ok _ => s.disk.removeFile link
      | .error _ => .ok s.disk
    match cleared with
    | .error fault => (.error (.io .replacingLink fault), s)
    | .ok disk =>
      let s := { s with disk }
      match s.disk.createLink (Bytes.ofText pointsTo) link with
      | .error fault => (.error (.io .creatingLink fault), s)
      | .ok disk => (.ok (), { s with disk })

/-- What a header leads to: the name of a complete dump, or nothing yet. -/
def apply (root : Path) (s : Intake) : Header → Except TransferError (Option String) × Intake
  | .file dump name size checksum =>
    match directoryOf root dump with
    | .error e => (.error e, s)
    | .ok dir =>
      match checkName name with
      | .error e => (.error e, s)
      | .ok () =>
        let (result, s) := receiveFile dir name size checksum s
        (result.map fun _ => none, s)
  | .parentLink dump pointsTo =>
    match directoryOf root dump with
    | .error e => (.error e, s)
    | .ok dir =>
      match checkLink pointsTo with
      | .error e => (.error e, s)
      | .ok () =>
        let (result, s) := placeLink dir pointsTo s
        (result.map fun _ => none, s)
  | .done dump =>
    match directoryOf root dump with
    | .error e => (.error e, s)
    | .ok dir =>
      let (result, s) := makeDirectory dir s
      (result.map fun _ => some dump, s)

theorem stream_makeDirectory (dir : Path) (s : Intake) :
    (makeDirectory dir s).2.stream = s.stream := rfl

theorem size_receiveFile_le (dir : Path) (name : String) (size : UInt64) (expected : UInt32)
    (s : Intake) : (receiveFile dir name size expected s).2.stream.size ≤ s.stream.size := by
  unfold receiveFile
  have hd := stream_makeDirectory dir s
  split
  · rename_i h
    rw [h] at hd
    exact Nat.le_of_eq (congrArg Inflow.size hd)
  · rename_i s₁ h
    rw [h] at hd
    dsimp only
    split
    · exact Nat.le_of_eq (congrArg Inflow.size hd)
    · rename_i place disk _
      have hc := size_takeContent_le place size.toNat Crc32.start { s₁ with disk }
      have hd' : s₁.stream.size = s.stream.size := congrArg Inflow.size hd
      split
      · rename_i hm
        rw [hm] at hc
        exact Nat.le_trans hc (Nat.le_of_eq hd')
      · rename_i hm
        rw [hm] at hc
        split
        · exact Nat.le_trans hc (Nat.le_of_eq hd')
        · split <;> exact Nat.le_trans hc (Nat.le_of_eq hd')

theorem stream_placeLink (dir : Path) (pointsTo : String) (s : Intake) :
    (placeLink dir pointsTo s).2.stream = s.stream := by
  unfold placeLink
  have hd := stream_makeDirectory dir s
  split
  · rename_i h
    rw [h] at hd
    exact hd
  · rename_i h
    rw [h] at hd
    dsimp only
    split
    · exact hd
    · split <;> exact hd

theorem size_apply_le (root : Path) (s : Intake) (h : Header) :
    (apply root s h).2.stream.size ≤ s.stream.size := by
  cases h with
  | file dump name size checksum =>
    simp only [apply]
    split
    · exact Nat.le_refl _
    · split
      · exact Nat.le_refl _
      · exact size_receiveFile_le _ _ _ _ _
  | parentLink dump pointsTo =>
    simp only [apply]
    split
    · exact Nat.le_refl _
    · split
      · exact Nat.le_refl _
      · exact Nat.le_of_eq (congrArg Inflow.size (stream_placeLink _ _ _))
  | done dump =>
    simp only [apply]
    split <;> exact Nat.le_refl _

/-- Takes headers until a dump is complete; the name of that dump. -/
def receive (auth : Auth) (root : Path) (s : Intake) : Except TransferError String × Intake :=
  match _hh : readHeader auth s.stream with
  | .error e => (.error e, s)
  | .ok (header, stream) =>
    match _ha : apply root { s with stream } header with
    | (.error e, next) => (.error e, next)
    | (.ok (some dump), next) => (.ok dump, next)
    | (.ok none, next) => receive auth root next
  termination_by s.stream.size
  decreasing_by
    have h := size_apply_le root ⟨s.disk, stream⟩ header
    rw [_ha] at h
    exact Nat.lt_of_le_of_lt h (size_of_readHeader _hh)

end Intake

/-- Serves one connection: what is written back, and the disk afterwards. -/
def serve (auth : Auth) (root : Path) (stream : Inflow) (disk : Disk) : Bytes × Disk :=
  let (outcome, s) := Intake.receive auth root ⟨disk, stream⟩
  ((Verdict.ofOutcome outcome).encode, s.disk)

end LiveMigration.Transfer
