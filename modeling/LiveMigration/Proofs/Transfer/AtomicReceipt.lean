import LiveMigration.Proofs.Disk.Operations
import LiveMigration.Proofs.Transfer.Receipt

/-!
Receiving one file is atomic. It has its name only if all its bytes have come and are the right
ones; otherwise what had this name still has it. Either way nothing is left of the file under
the temporary name, and nothing else has changed, however the bytes came.
-/

namespace LiveMigration.Transfer

/-- Where a file stands in a directory until it is known to be right. -/
def temporaryPlace (l : Location) (name : String) : Location :=
  l ++ [Bytes.ofText (Intake.temporaryName name)]

def finalPlace (l : Location) (name : String) : Location := l ++ [Bytes.ofText name]

theorem temporaryPlace_ne_nil (l : Location) (name : String) : temporaryPlace l name ≠ [] := by
  simp [temporaryPlace]

theorem finalPlace_ne_nil (l : Location) (name : String) : finalPlace l name ≠ [] := by
  simp [finalPlace]

theorem temporaryPlace_ne (l : Location) (name : String) :
    temporaryPlace l name ≠ finalPlace l name := by
  simpa [temporaryPlace, finalPlace] using temporaryName_ne name

/-- A directory that can take a file of some name: the name is one that is accepted, the names
are short enough for the disk, a file or nothing has the temporary one, and the name itself
stands for no directory. -/
structure Ready (d : Disk) (dir : Path) (l : Location) (name : String) : Prop where
  found : d.find dir = .ok (.present l .directory)
  plainName : Intake.isPlainName name = true
  usable : Disk.Usable dir (Bytes.ofText (Intake.temporaryName name))
  temporary : ∀ e, d.tree.get? (temporaryPlace l name) = some e → ∃ content, e = .file content
  final : d.tree.get? (finalPlace l name) ≠ some .directory

/-- The bytes that are left begin with a whole file, and it is the one that was announced. -/
def Complete (size : UInt64) (expected : UInt32) (left : Bytes) : Prop :=
  size.toNat ≤ left.length ∧ Crc32.ofBytes (left.take size.toNat) = expected

instance (size : UInt64) (expected : UInt32) (left : Bytes) :
    Decidable (Complete size expected left) :=
  inferInstanceAs (Decidable (_ ∧ _))

/-- What is said of a file. -/
def receiptOf (name : String) (size : UInt64) (expected : UInt32) (left : Bytes) :
    Except TransferError Unit :=
  if left.length < size.toNat then
    .error (.io .receivingFile (.missing (size.toNat - left.length) name))
  else if Crc32.ofBytes (left.take size.toNat) ≠ expected then
    .error (.checksumMismatch name expected (Crc32.ofBytes (left.take size.toNat)))
  else .ok ()

section

variable {name : String} {size : UInt64} {expected : UInt32} {left : Bytes}

theorem receiptOf_complete (complete : Complete size expected left) :
    receiptOf name size expected left = .ok () := by
  rw [receiptOf, if_neg (Nat.not_lt.2 complete.1), if_neg (not_not.2 complete.2)]

theorem receiptOf_incomplete (incomplete : ¬ Complete size expected left) :
    ∃ e, receiptOf name size expected left = .error e := by
  unfold receiptOf
  split
  · exact ⟨_, rfl⟩
  · split
    · exact ⟨_, rfl⟩
    · exact absurd ⟨Nat.le_of_not_lt ‹_›, not_not.1 ‹_›⟩ incomplete

theorem complete_of_receiptOf (h : receiptOf name size expected left = .ok ()) :
    Complete size expected left := by
  by_contra incomplete
  obtain ⟨e, failed⟩ : ∃ e, receiptOf name size expected left = .error e :=
    receiptOf_incomplete incomplete
  cases h.symm.trans failed

end

/-- The open file, with what has come of it. -/
def filled (l : Location) (name : String) (size : UInt64) (s : Intake) : Intake :=
  (Intake.takeContent (temporaryPlace l name) size.toNat Crc32.start
    ⟨s.disk.change (.put (temporaryPlace l name) (.file [])), s.stream⟩).2

variable {dir : Path} {l : Location} {name : String} {s : Intake}

/-- A directory that is there is not made once more. -/
theorem makeDirectory_of_find (found : s.disk.find dir = .ok (.present l .directory)) :
    Intake.makeDirectory dir s = (.ok (), s) := by
  unfold Intake.makeDirectory
  rw [Disk.createDirectories_of_find found]
  rfl

/-- It is no matter whether the directory has to be made first. -/
theorem receiveFile_of_made {before : Intake} (size : UInt64) (expected : UInt32)
    (found : s.disk.find dir = .ok (.present l .directory))
    (made : Intake.makeDirectory dir before = (.ok (), s)) :
    Intake.receiveFile dir name size expected before =
      Intake.receiveFile dir name size expected s := by
  unfold Intake.receiveFile
  rw [made, makeDirectory_of_find found]

theorem flatten_filled (l : Location) (name : String) (size : UInt64) (s : Intake) :
    (filled l name size s).stream.flatten = s.stream.flatten.drop size.toNat :=
  (takeContent_stream ..).2

/-- The open file holds as many of the bytes that were left as it may, and is all that is new. -/
theorem filled_disk (l : Location) (name : String) (size : UInt64) (s : Intake) :
    (filled l name size s).disk.cwd = s.disk.cwd ∧
      ∀ k, (filled l name size s).disk.tree.get? k =
        if k = temporaryPlace l name then some (.file (s.stream.flatten.take size.toNat))
        else s.disk.tree.get? k := by
  have ne := temporaryPlace_ne_nil l name
  have put (k : Location) : (s.disk.tree.put (temporaryPlace l name) (.file [])).get? k =
      if k = temporaryPlace l name then some (.file []) else s.disk.tree.get? k :=
    s.disk.tree.get?_put _ k _ ne
  obtain ⟨cwd, contents⟩ :=
    takeContent_disk (s := ⟨s.disk.change (.put (temporaryPlace l name) (.file [])), s.stream⟩)
      size.toNat Crc32.start ne ((put _).trans (if_pos rfl))
  refine ⟨cwd, fun k => (contents k).trans ?_⟩
  by_cases same : k = temporaryPlace l name
  · rw [if_pos same, if_pos same]
    rfl
  · rw [if_neg same, if_neg same]
    exact (put k).trans (if_neg same)

/-- The directory is still found while the file is open. -/
theorem leads_filled (leads : s.disk.Leads dir l)
    (temporary : ∀ e, s.disk.tree.get? (temporaryPlace l name) = some e →
      ∃ content, e = .file content) (size : UInt64) :
    (filled l name size s).disk.Leads dir l := by
  obtain ⟨cwd, contents⟩ := filled_disk l name size s
  have keeps : s.disk.tree.Keeps (filled l name size s).disk.tree := by
    intro k e leadsOn there
    rw [contents]
    split
    · rename_i same
      obtain ⟨content, rfl⟩ := temporary e (same ▸ there)
      exact leadsOn.elim
    · exact there
  unfold Disk.Leads
  rw [cwd]
  exact FileTree.Leads.keep leads keeps

namespace Ready

theorem leads (ready : Ready s.disk dir l name) : s.disk.Leads dir l :=
  FileTree.leads_of_find ready.found

theorem createFile (ready : Ready s.disk dir l name) :
    s.disk.createFile (dir.joinText (Intake.temporaryName name)) =
      .ok (temporaryPlace l name, s.disk.change (.put (temporaryPlace l name) (.file []))) :=
  ready.usable.createFile ready.leads ready.temporary

/-- The name is no longer than the temporary one. -/
theorem usable_name (ready : Ready s.disk dir l name) : Disk.Usable dir (Bytes.ofText name) := by
  refine ready.usable.shorter ready.leads.nonempty (ordinary_of_isPlainName ready.plainName).1 ?_
  rw [ofText_temporaryName, List.length_cons, List.length_append]
  omega

/-- The open file is removed, or moved if it is the one that was announced. -/
theorem receiveFile_eq (ready : Ready s.disk dir l name) (size : UInt64) (expected : UInt32) :
    Intake.receiveFile dir name size expected s =
      (receiptOf name size expected s.stream.flatten,
        ⟨(if Complete size expected s.stream.flatten then
            (filled l name size s).disk.change
              (.put (finalPlace l name) (.file (s.stream.flatten.take size.toNat)))
          else (filled l name size s).disk).change (.erase (temporaryPlace l name)),
          (filled l name size s).stream⟩) := by
  have leads := leads_filled ready.leads ready.temporary size
  have contents := (filled_disk l name size s).2
  have there := (contents (temporaryPlace l name)).trans (if_pos rfl)
  have discarded : (filled l name size s).discard (dir.joinText (Intake.temporaryName name)) =
      ⟨(filled l name size s).disk.change (.erase (temporaryPlace l name)),
        (filled l name size s).stream⟩ := by
    unfold Intake.discard
    rw [Path.joinText, ready.usable.removeFile leads there nofun]
    rfl
  have renamed := ready.usable.renameFile leads ready.usable_name (temporaryName_ne name) there
    (by
      rw [← finalPlace, contents, if_neg (temporaryPlace_ne l name).symm]
      exact ready.final)
  have outcome : Intake.takeContent (temporaryPlace l name) size.toNat Crc32.start
      ⟨s.disk.change (.put (temporaryPlace l name) (.file [])), s.stream⟩ =
        (arrivedOf size.toNat Crc32.start s.stream.flatten, filled l name size s) :=
    Prod.ext (takeContent_stream ..).1 rfl
  unfold Intake.receiveFile
  rw [makeDirectory_of_find ready.found]
  dsimp only
  rw [ready.createFile]
  dsimp only
  rw [outcome]
  -- Bytes are missing, or all are there and are the right ones, or others.
  by_cases short : s.stream.flatten.length < size.toNat
  · rw [arrivedOf, if_neg (Nat.not_le.2 short), receiptOf, if_pos short,
      if_neg fun complete => Nat.not_lt.2 complete.1 short]
    exact congrArg _ discarded
  rw [arrivedOf, if_pos (Nat.le_of_not_lt short), receiptOf, if_neg short]
  dsimp only
  rw [← Crc32.ofBytes]
  by_cases right : Crc32.ofBytes (s.stream.flatten.take size.toNat) = expected
  · rw [if_neg (not_not.2 right), if_neg (not_not.2 right), if_pos ⟨Nat.le_of_not_lt short, right⟩]
    dsimp only [Path.joinText]
    rw [renamed]
    rfl
  · have incomplete : ¬ Complete size expected s.stream.flatten := fun complete => right complete.2
    rw [if_pos right, if_pos right, if_neg incomplete]
    exact congrArg _ discarded

/-- All that the receipt of a file does. -/
theorem receiveFile (ready : Ready s.disk dir l name) (size : UInt64) (expected : UInt32) :
    let after := (Intake.receiveFile dir name size expected s).2
    (Intake.receiveFile dir name size expected s).1 =
        receiptOf name size expected s.stream.flatten ∧
      after.stream.flatten = s.stream.flatten.drop size.toNat ∧
      after.disk.cwd = s.disk.cwd ∧
      ∀ k, after.disk.tree.get? k =
        if k = temporaryPlace l name then none
        else if k = finalPlace l name ∧ Complete size expected s.stream.flatten then
          some (.file (s.stream.flatten.take size.toNat))
        else s.disk.tree.get? k := by
  rw [ready.receiveFile_eq size expected]
  obtain ⟨cwd, contents⟩ := filled_disk l name size s
  refine ⟨rfl, flatten_filled l name size s, ?_, fun k => ?_⟩
  · dsimp only
    split <;> exact cwd
  refine (FileTree.get?_erase _ _ k (temporaryPlace_ne_nil l name)).trans ?_
  split
  · rfl
  rename_i away
  split
  · rename_i complete
    refine (FileTree.get?_put _ _ k _ (finalPlace_ne_nil l name)).trans ?_
    rw [contents, if_neg away]
    exact if_congr (and_iff_left complete).symm rfl rfl
  · rename_i incomplete
    rw [contents, if_neg away, if_neg fun both => incomplete both.2]

/-- Only such a directory can have taken a file. -/
theorem of_receiveFile {size : UInt64} {expected : UInt32} {s' : Intake}
    (found : s.disk.find dir = .ok (.present l .directory))
    (plainName : Intake.isPlainName name = true)
    (plain : ∀ target, s.disk.tree.get? (temporaryPlace l name) ≠ some (.link target))
    (h : Intake.receiveFile dir name size expected s = (.ok (), s')) :
    Ready s.disk dir l name := by
  obtain ⟨o, _⟩ := ordinary_of_isPlainName plainName
  obtain ⟨o', _⟩ := ordinary_temporaryName o
  have leads : s.disk.Leads dir l := FileTree.leads_of_find found
  cases fileReceipt h with
  | @named opened after place disk final register made created taken renamed =>
      rw [makeDirectory_of_find found] at made
      cases made
      have temporary : ∀ e, s.disk.tree.get? (temporaryPlace l name) = some e →
          ∃ content, e = .file content :=
        fun e there => Disk.replaced_of_createFile leads o' plain created there
      obtain ⟨rfl, rfl⟩ := Disk.createFile_cases leads o' plain created
      obtain rfl : filled l name size s = after := congrArg Prod.snd taken
      refine ⟨found, plainName, Disk.usable_of_createFile leads o' plain created, temporary, ?_⟩
      have free := Disk.replaced_of_renameFile (leads_filled leads temporary size) o renamed
      rw [← finalPlace, (filled_disk l name size s).2,
        if_neg (temporaryPlace_ne l name).symm] at free
      exact free

end Ready

/-- A file has its name after it was received if as many bytes as were announced are there and
have the checksum that was announced, and then these bytes are taken; otherwise the receipt
fails and what had this name still has it. Either way nothing has the temporary name, and
everything else is as it was. It is no matter whether the directory has to be made first. -/
theorem atomic_receipt (size : UInt64) (expected : UInt32) (ready : Ready s.disk dir l name) :
    let left := s.stream.flatten
    let result := (Intake.receiveFile dir name size expected s).1
    let after := (Intake.receiveFile dir name size expected s).2
    (size.toNat ≤ left.length ∧ Crc32.ofBytes (left.take size.toNat) = expected →
      result = .ok () ∧ after.stream.flatten = left.drop size.toNat ∧
        after.disk.tree.get? (finalPlace l name) = some (.file (left.take size.toNat))) ∧
    (¬ (size.toNat ≤ left.length ∧ Crc32.ofBytes (left.take size.toNat) = expected) →
      (∃ e, result = .error e) ∧
        after.disk.tree.get? (finalPlace l name) = s.disk.tree.get? (finalPlace l name)) ∧
    after.disk.tree.get? (temporaryPlace l name) = none ∧
    (∀ k, k ≠ temporaryPlace l name → k ≠ finalPlace l name →
      after.disk.tree.get? k = s.disk.tree.get? k) ∧
    ∀ before, Intake.makeDirectory dir before = (.ok (), s) →
      Intake.receiveFile dir name size expected before =
        Intake.receiveFile dir name size expected s := by
  obtain ⟨outcome, rest, _, contents⟩ := ready.receiveFile size expected
  have apart := (temporaryPlace_ne l name).symm
  refine ⟨fun complete => ⟨?_, rest, ?_⟩, fun incomplete => ⟨?_, ?_⟩, ?_, ?_,
    fun before => receiveFile_of_made size expected ready.found⟩
  · rw [outcome, receiptOf_complete complete]
  · rw [contents, if_neg apart, if_pos ⟨rfl, complete⟩]
  · rw [outcome]
    exact receiptOf_incomplete incomplete
  · rw [contents, if_neg apart, if_neg fun both => incomplete both.2]
  · rw [contents, if_pos rfl]
  · intro k temporary final
    rw [contents, if_neg temporary, if_neg fun both => final both.1]

/-- A dump with a file that is to be replaced, and a temporary one that was left behind. -/
def sampleSpool : Disk :=
  .ofTree ⟨[([Bytes.ofText "d1"], .directory),
    ([Bytes.ofText "d1", Bytes.ofText "a"], .file [0x30]),
    ([Bytes.ofText "d1", Bytes.ofText ".a.part"], .file [0x31, 0x32, 0x33])]⟩ []

/-- Three bytes in two pieces are enough for a file of two, but not for one of four. -/
theorem atomic_receipt_sample :
    let dir : Path := ⟨Bytes.ofText "/d1"⟩
    let s : Intake := ⟨sampleSpool, [[0x31], [], [0x32, 0x33]]⟩
    let checksum := Crc32.ofBytes [0x31, 0x32]
    Ready s.disk dir [Bytes.ofText "d1"] "a" ∧
      (Intake.receiveFile dir "a" 2 checksum s).2.stream.flatten = [0x33] ∧
      (Intake.receiveFile dir "a" 2 checksum s).2.disk.tree.get?
        [Bytes.ofText "d1", Bytes.ofText "a"] = some (.file [0x31, 0x32]) ∧
      (Intake.receiveFile dir "a" 4 checksum s).2.disk.tree.get?
        [Bytes.ofText "d1", Bytes.ofText "a"] = some (.file [0x30]) := by
  intro dir s checksum
  have ordinary : Path.Ordinary (Bytes.ofText (Intake.temporaryName "a")) := by
    constructor <;> decide +kernel
  have ready : Ready s.disk dir [Bytes.ofText "d1"] "a" := by
    refine ⟨by decide +kernel, by decide +kernel, ⟨ordinary, by decide +kernel, by decide +kernel⟩,
      fun e there => ?_, by decide +kernel⟩
    have left : s.disk.tree.get? (temporaryPlace [Bytes.ofText "d1"] "a") =
        some (.file [0x31, 0x32, 0x33]) := by decide +kernel
    exact ⟨_, Option.some.inj (there.symm.trans left)⟩
  obtain ⟨taken, -⟩ := atomic_receipt 2 checksum ready
  obtain ⟨-, short, -⟩ := atomic_receipt 4 checksum ready
  obtain ⟨-, rest, final⟩ := taken (by decide +kernel)
  obtain ⟨-, kept⟩ := short (by decide +kernel)
  exact ⟨ready, rest, final, kept⟩

end LiveMigration.Transfer
