import LiveMigration.Proofs.Dump.Directory
import LiveMigration.Proofs.Transfer.Frame
import LiveMigration.Transfer.Receiver

/-!
What can come of a header that a receiver reads, and of the file or the link it is for. The file
has a name for a while that is made from its own, and it is there under its own only if all went
well.
-/

namespace LiveMigration.Transfer

open Lineage

/-! ## Names of files and targets of links -/

theorem ofText_temporaryName (name : String) : Bytes.ofText (Intake.temporaryName name) =
    0x2E :: (Bytes.ofText name ++ [0x2E, 0x70, 0x61, 0x72, 0x74]) := by
  rw [Intake.temporaryName, Bytes.ofText_append, Bytes.ofText_append]
  rfl

theorem temporaryName_ne (name : String) :
    Bytes.ofText (Intake.temporaryName name) ≠ Bytes.ofText name := by
  intro same
  have := congrArg List.length same
  rw [ofText_temporaryName, List.length_cons, List.length_append] at this
  omega

theorem ordinary_temporaryName {name : String} (o : Path.Ordinary (Bytes.ofText name)) :
    Path.Ordinary (Bytes.ofText (Intake.temporaryName name)) ∧
      Bytes.ofText (Intake.temporaryName name) ≠ linkEntry := by
  have long : 6 ≤ (Bytes.ofText (Intake.temporaryName name)).length := by
    rw [ofText_temporaryName]
    simp
  refine ⟨⟨?_, ?_, ?_, ?_, ?_⟩, ?_⟩
  · rw [ofText_temporaryName]
    exact List.cons_ne_nil _ _
  · rw [ofText_temporaryName]
    have : (0x2F : UInt8) ∉ Bytes.ofText name := o.noSlash
    simp [this, Path.slash]
  · rw [ofText_temporaryName]
    simp [o.noZero]
  · intro same
    rw [same] at long
    exact absurd long (by decide)
  · intro same
    rw [same] at long
    exact absurd long (by decide)
  · rw [ofText_temporaryName]
    intro same
    exact absurd (List.cons.inj same).1 (by decide)

/-- A name that a received file may have in the end. -/
theorem ordinary_of_isPlainName {name : String} (h : Intake.isPlainName name = true) :
    Path.Ordinary (Bytes.ofText name) ∧ Bytes.ofText name ≠ linkEntry := by
  have named {s : String} (h : Bytes.ofText name = Bytes.ofText s) : name = s :=
    Bytes.ofText_injective h
  have absent {c : Char} {b : UInt8} (none : name.toList.contains c = false)
      (same : b.toNat = c.toNat) (small : c.toNat < 128) : b ∉ Bytes.ofText name := by
    intro mem
    rw [List.contains_iff_mem.2 (Bytes.mem_of_mem_ofText mem same small)] at none
    cases none
  simp only [Intake.isPlainName, Bool.not_eq_true', Bool.or_eq_false_iff, beq_eq_false_iff_ne]
    at h
  obtain ⟨⟨⟨⟨⟨full, dot⟩, dotDot⟩, link⟩, slash⟩, zero⟩ := h
  refine ⟨⟨?_, absent slash rfl (by decide), absent zero rfl (by decide), ?_, ?_⟩,
    fun same => link (named same)⟩
  · intro none
    rw [named (s := "") none] at full
    cases full
  · exact fun same => dot (named same)
  · exact fun same => dotDot (named same)

theorem isPlainName_of_checkName {name : String} (h : Intake.checkName name = .ok ()) :
    Intake.isPlainName name = true := by
  unfold Intake.checkName at h
  split at h
  · assumption
  · cases h

theorem dump_of_directoryOf {root dir : Path} {dump : String}
    (h : Intake.directoryOf root dump = .ok dir) :
    ∃ x : Dump, dump = x.name ∧ dir = x.pathIn root := by
  unfold Intake.directoryOf at h
  split at h
  · rename_i x named
    cases h
    exact ⟨x, (Dump.name_of_ofName named).symm, rfl⟩
  · cases h

/-- A link that is accepted goes to a dump beside its own. -/
theorem parentPath_of_checkLink {pointsTo : String} (h : Intake.checkLink pointsTo = .ok ()) :
    ∃ d : Dump, pointsTo = d.parentPath := by
  unfold Intake.checkLink at h
  split at h
  · cases h
  rename_i name sibling
  split at h
  · rename_i d named
    refine ⟨d, ?_⟩
    unfold Intake.siblingName? at sibling
    split at sibling
    · rename_i cs spelt
      cases sibling
      rw [Dump.parentPath, Dump.name_of_ofName named]
      apply String.toList_inj.1
      simp [spelt]
    · cases sibling
  · cases h

/-! ## Content -/

variable {s : Intake} {m : Location} {written : Bytes}

/-- What a reader of so many bytes is told of those that are left. -/
def arrivedOf (remaining : Nat) (register : UInt32) (left : Bytes) : Intake.Arrived :=
  if remaining ≤ left.length then .whole (Crc32.feedAll register (left.take remaining))
  else .missing (remaining - left.length)

/-- However the bytes come, so many are taken, or all there are. -/
theorem takeContent_stream (m : Location) (remaining : Nat) (register : UInt32) (s : Intake) :
    (Intake.takeContent m remaining register s).1 =
        arrivedOf remaining register s.stream.flatten ∧
      (Intake.takeContent m remaining register s).2.stream.flatten =
        s.stream.flatten.drop remaining := by
  fun_induction Intake.takeContent m remaining register s with
  | case1 register s => simp [arrivedOf, Crc32.feedAll]
  | case2 remaining register s positive stream read =>
      obtain ⟨flat, rest⟩ := Inflow.readSome_nil (by unfold Intake.chunkSize; omega) read
      simp [arrivedOf, flat, rest, positive]
  | case3 remaining register s positive b bytes stream read ih =>
      have flat := Inflow.flatten_readSome (min remaining Intake.chunkSize) s.stream
      have most := Inflow.length_readSome_le (min remaining Intake.chunkSize) s.stream
      rw [read] at flat most
      dsimp only at flat most ih
      rw [List.length_cons] at most
      have enough : (b :: bytes).length ≤ remaining := by
        rw [List.length_cons]
        omega
      obtain ⟨outcome, rest⟩ := ih
      refine ⟨outcome.trans ?_, rest.trans ?_⟩
      · rw [flat, arrivedOf, arrivedOf, List.take_append, List.take_of_length_le enough,
          Crc32.feedAll_append, List.length_append, List.length_cons]
        split
        · rw [if_pos (by omega)]
        · rw [if_neg (by omega)]
          congr 1
          omega
      · rw [flat, List.drop_append, List.drop_of_length_le enough, List.nil_append]
        rfl

/-- What is taken stands in the file behind what was there, and nothing else has changed. -/
theorem takeContent_disk (remaining : Nat) (register : UInt32) (ne : m ≠ [])
    (there : s.disk.tree.get? m = some (.file written)) :
    (Intake.takeContent m remaining register s).2.disk.cwd = s.disk.cwd ∧
      ∀ l, (Intake.takeContent m remaining register s).2.disk.tree.get? l =
        if l = m then some (.file (written ++ s.stream.flatten.take remaining))
        else s.disk.tree.get? l := by
  fun_induction Intake.takeContent m remaining register s generalizing written with
  | case1 register s =>
      refine ⟨rfl, fun l => ?_⟩
      by_cases same : l = m
      · simp [same, there]
      · rw [if_neg same]
  | case2 remaining register s positive stream read =>
      obtain ⟨flat, _⟩ := Inflow.readSome_nil (by unfold Intake.chunkSize; omega) read
      refine ⟨rfl, fun l => ?_⟩
      by_cases same : l = m
      · simp [same, there, flat]
      · rw [if_neg same]
  | case3 remaining register s positive b bytes stream read ih =>
      have flat := Inflow.flatten_readSome (min remaining Intake.chunkSize) s.stream
      have most := Inflow.length_readSome_le (min remaining Intake.chunkSize) s.stream
      rw [read] at flat most
      dsimp only at flat most
      rw [List.length_cons] at most
      have enough : (b :: bytes).length ≤ remaining := by
        rw [List.length_cons]
        omega
      have appended : s.disk.append m (b :: bytes) =
          s.disk.change (.put m (.file (written ++ b :: bytes))) := by
        rw [Disk.append, there]
      have got (l : Location) : (s.disk.append m (b :: bytes)).tree.get? l =
          if l = m then some (.file (written ++ b :: bytes)) else s.disk.tree.get? l := by
        rw [appended]
        exact s.disk.tree.get?_put m l _ ne
      obtain ⟨cwd, contents⟩ := ih ((got m).trans (if_pos rfl))
      refine ⟨?_, fun l => (contents l).trans ?_⟩
      · rw [cwd, appended]
        rfl
      · by_cases same : l = m
        · rw [if_pos same, if_pos same, flat, List.take_append, List.take_of_length_le enough,
            List.append_assoc]
          rfl
        · rw [if_neg same, if_neg same, got, if_neg same]

/-! ## Files and links -/

theorem createDirectories_of_makeDirectory {dir : Path} {s s' : Intake}
    {r : Except TransferError Unit} (h : Intake.makeDirectory dir s = (r, s')) :
    ∃ made, s.disk.createDirectories dir = (made, s'.disk) ∧ (r = .ok () ↔ made = .ok ()) ∧
      s'.stream = s.stream := by
  unfold Intake.makeDirectory at h
  cases result : s.disk.createDirectories dir with
  | mk made disk =>
      rw [result] at h
      obtain ⟨rfl, rfl⟩ := Prod.mk.inj h
      refine ⟨made, rfl, ?_, rfl⟩
      cases made with
      | ok => exact ⟨fun _ => rfl, fun _ => rfl⟩
      | error => exact ⟨nofun, nofun⟩

/-- How the receipt of a file can go. -/
inductive FileReceipt (dir : Path) (name : String) (size : UInt64) (s : Intake) :
    Except TransferError Unit → Intake → Prop
  | noDirectory {e : TransferError} {s' : Intake}
      (made : Intake.makeDirectory dir s = (.error e, s')) :
      FileReceipt dir name size s (.error e) s'
  | noFile {e : TransferError} {s' : Intake}
      (made : Intake.makeDirectory dir s = (.ok (), s')) : FileReceipt dir name size s (.error e) s'
  | discarded {e : TransferError} {opened s' : Intake} {place : Location} {disk : Disk}
      {arrived : Intake.Arrived} (made : Intake.makeDirectory dir s = (.ok (), opened))
      (created : opened.disk.createFile (dir.joinText (Intake.temporaryName name)) =
        .ok (place, disk))
      (taken : Intake.takeContent place size.toNat Crc32.start ⟨disk, opened.stream⟩ =
        (arrived, s')) :
      FileReceipt dir name size s (.error e) (s'.discard (dir.joinText (Intake.temporaryName name)))
  | unnamed {e : TransferError} {opened s' : Intake} {place : Location} {disk : Disk}
      {register : UInt32} (made : Intake.makeDirectory dir s = (.ok (), opened))
      (created : opened.disk.createFile (dir.joinText (Intake.temporaryName name)) =
        .ok (place, disk))
      (taken : Intake.takeContent place size.toNat Crc32.start ⟨disk, opened.stream⟩ =
        (.whole register, s')) : FileReceipt dir name size s (.error e) s'
  | named {opened s' : Intake} {place : Location} {disk final : Disk} {register : UInt32}
      (made : Intake.makeDirectory dir s = (.ok (), opened))
      (created : opened.disk.createFile (dir.joinText (Intake.temporaryName name)) =
        .ok (place, disk))
      (taken : Intake.takeContent place size.toNat Crc32.start ⟨disk, opened.stream⟩ =
        (.whole register, s'))
      (renamed : s'.disk.renameFile (dir.joinText (Intake.temporaryName name))
        (dir.joinText name) = .ok final) : FileReceipt dir name size s (.ok ()) ⟨final, s'.stream⟩

theorem fileReceipt {dir : Path} {name : String} {size : UInt64} {expected : UInt32}
    {s s' : Intake} {r : Except TransferError Unit}
    (h : Intake.receiveFile dir name size expected s = (r, s')) :
    FileReceipt dir name size s r s' := by
  unfold Intake.receiveFile at h
  split at h
  · rename_i made
    cases h
    exact .noDirectory made
  rename_i opened made
  dsimp only at h
  split at h
  · cases h
    exact .noFile made
  rename_i place disk created
  split at h
  · rename_i taken
    cases h
    exact .discarded made created taken
  rename_i taken
  split at h
  · cases h
    exact .discarded made created taken
  split at h
  · cases h
    exact .unnamed made created taken
  · rename_i renamed
    cases h
    exact .named made created taken renamed

/-- How the making of a link can go. -/
inductive LinkReceipt (dir : Path) (pointsTo : String) (s : Intake) :
    Except TransferError Unit → Intake → Prop
  | noDirectory {e : TransferError} {s' : Intake}
      (made : Intake.makeDirectory dir s = (.error e, s')) :
      LinkReceipt dir pointsTo s (.error e) s'
  | kept {e : TransferError} {s' : Intake}
      (made : Intake.makeDirectory dir s = (.ok (), s')) : LinkReceipt dir pointsTo s (.error e) s'
  | cleared {e : TransferError} {opened : Intake} {disk : Disk}
      (made : Intake.makeDirectory dir s = (.ok (), opened))
      (cleared : disk = opened.disk ∨ opened.disk.removeFile (dir.joinText linkName) = .ok disk) :
      LinkReceipt dir pointsTo s (.error e) ⟨disk, opened.stream⟩
  | placed {opened : Intake} {disk final : Disk}
      (made : Intake.makeDirectory dir s = (.ok (), opened))
      (cleared : disk = opened.disk ∨ opened.disk.removeFile (dir.joinText linkName) = .ok disk)
      (linked : disk.createLink (Bytes.ofText pointsTo) (dir.joinText linkName) = .ok final) :
      LinkReceipt dir pointsTo s (.ok ()) ⟨final, opened.stream⟩

theorem linkReceipt {dir : Path} {pointsTo : String} {s s' : Intake}
    {r : Except TransferError Unit} (h : Intake.placeLink dir pointsTo s = (r, s')) :
    LinkReceipt dir pointsTo s r s' := by
  unfold Intake.placeLink at h
  split at h
  · rename_i made
    cases h
    exact .noDirectory made
  rename_i opened made
  dsimp only at h
  split at h
  · cases h
    exact .kept made
  rename_i disk result
  have cleared : disk = opened.disk ∨
      opened.disk.removeFile (dir.joinText linkName) = .ok disk := by
    split at result
    · exact .inr result
    · exact .inl (Except.ok.inj result).symm
  split at h
  · cases h
    exact .cleared made cleared
  · rename_i linked
    cases h
    exact .placed made cleared linked

/-! ## Headers -/

/-- How acting on a header can go. -/
inductive HeaderReceipt (root : Path) (s : Intake) :
    Header → Except TransferError (Option String) → Intake → Prop
  | refused {header : Header} {e : TransferError} : HeaderReceipt root s header (.error e) s
  | file (x : Dump) {name : String} {size : UInt64} {checksum : UInt32} {s' : Intake}
      {r : Except TransferError Unit} {outcome : Except TransferError (Option String)}
      (plainName : Intake.isPlainName name = true)
      (received : Intake.receiveFile (x.pathIn root) name size checksum s = (r, s'))
      (same : r.map (fun _ => none) = outcome) :
      HeaderReceipt root s (.file x.name name size checksum) outcome s'
  | parentLink (x : Dump) {pointsTo : String} {s' : Intake} {r : Except TransferError Unit}
      {outcome : Except TransferError (Option String)}
      (sibling : Intake.checkLink pointsTo = .ok ())
      (placed : Intake.placeLink (x.pathIn root) pointsTo s = (r, s'))
      (same : r.map (fun _ => none) = outcome) :
      HeaderReceipt root s (.parentLink x.name pointsTo) outcome s'
  | done (x : Dump) {s' : Intake} {r : Except TransferError Unit}
      {outcome : Except TransferError (Option String)}
      (made : Intake.makeDirectory (x.pathIn root) s = (r, s'))
      (same : r.map (fun _ => some x.name) = outcome) :
      HeaderReceipt root s (.done x.name) outcome s'

theorem headerReceipt {root : Path} {header : Header} {s s' : Intake}
    {outcome : Except TransferError (Option String)}
    (h : Intake.apply root s header = (outcome, s')) : HeaderReceipt root s header outcome s' := by
  cases header with
  | file dump name size checksum =>
      simp only [Intake.apply] at h
      split at h
      · cases h
        exact .refused
      rename_i named
      obtain ⟨x, rfl, rfl⟩ := dump_of_directoryOf named
      split at h
      · cases h
        exact .refused
      rename_i checked
      obtain ⟨same, rfl⟩ := Prod.mk.inj h
      exact .file x (isPlainName_of_checkName checked) rfl same
  | parentLink dump pointsTo =>
      simp only [Intake.apply] at h
      split at h
      · cases h
        exact .refused
      rename_i named
      obtain ⟨x, rfl, rfl⟩ := dump_of_directoryOf named
      split at h
      · cases h
        exact .refused
      rename_i sibling
      obtain ⟨same, rfl⟩ := Prod.mk.inj h
      exact .parentLink x sibling rfl same
  | done dump =>
      simp only [Intake.apply] at h
      split at h
      · cases h
        exact .refused
      rename_i named
      obtain ⟨x, rfl, rfl⟩ := dump_of_directoryOf named
      obtain ⟨same, rfl⟩ := Prod.mk.inj h
      exact .done x rfl same

/-! ## One header after another -/

section

variable {auth : Auth} {root : Path} {t : Intake} {header : Header} {stream : Inflow}

theorem receive_of_error {e : TransferError} (read : readHeader auth t.stream = .error e) :
    Intake.receive auth root t = (.error e, t) := by
  rw [Intake.receive]
  split
  · rename_i failed
    rw [read] at failed
    cases failed
    rfl
  · rename_i ok
    rw [read] at ok
    cases ok

theorem receive_of_header (read : readHeader auth t.stream = .ok (header, stream)) :
    Intake.receive auth root t =
      match Intake.apply root ⟨t.disk, stream⟩ header with
      | (.error e, next) => (.error e, next)
      | (.ok (some dump), next) => (.ok dump, next)
      | (.ok none, next) => Intake.receive auth root next := by
  rw [Intake.receive]
  split
  · rename_i failed
    rw [read] at failed
    cases failed
  · rename_i ok
    rw [read] at ok
    cases ok
    split <;> rename_i applied <;> rw [applied]

end

end LiveMigration.Transfer
