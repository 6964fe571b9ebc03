import LiveMigration.Proofs.Transfer.Header
import LiveMigration.Proofs.Transfer.Intake
import LiveMigration.Transfer.Sender

/-!
Headers that arrive. Each of them is about one dump and changes nothing but its directory; one
that is accepted has made the directory, has taken what it announced off the stream and leaves
the rest of the directory as it was. What a whole transfer leaves behind is told from its
headers one by one.
-/

namespace LiveMigration.Transfer

open Lineage

/-- The dump that a header is about. -/
def Header.dump : Header → String
  | .file dump _ _ _ | .parentLink dump _ | .done dump => dump

/-- How many bytes a header announces. -/
def Header.contentLength : Header → Nat
  | .file _ _ size _ => size.toNat
  | .parentLink _ _ | .done _ => 0

/-- The dump that a header completes, if it is the last one of a dump. -/
def Header.completed? : Header → Option String
  | .done dump => some dump
  | .file .. | .parentLink .. => none

/-- What stands at the place of the link after a header. -/
def Header.linkAfter (link : Option Entry) : Header → Option Entry
  | .parentLink _ pointsTo => some (.link (Bytes.ofText pointsTo))
  | .file .. | .done _ => link

/-- What is sent of a dump before its end, if its link is sent at all as a link to some other
dump: as many bytes behind a header as it says. -/
def Fits (dump : Dump) (pointsTo : String) : Header × Bytes → Prop
  | (.file d _ size _, content) => d = dump.name ∧ content.length = size.toNat
  | (.parentLink d target, content) => d = dump.name ∧ target = pointsTo ∧ content = []
  | (.done _, _) => False

def isLink : Header × Bytes → Bool
  | (.parentLink _ _, _) => true
  | _ => false

/-- What a directory holds under its names after a header and what comes with it. -/
def arrive (held : Bytes → Option Entry) : Header × Bytes → Bytes → Option Entry
  | (.file _ name _ _, content), entry =>
    if entry = Bytes.ofText (Intake.temporaryName name) then none
    else if entry = Bytes.ofText name then some (.file content)
    else held entry
  | (.parentLink _ pointsTo, _), entry =>
    if entry = linkEntry then some (.link (Bytes.ofText pointsTo)) else held entry
  | (.done _, _), entry => held entry

/-- What stands in a directory under each name; there is nothing below that. -/
structure Holds (d : Disk) (l : Location) (held : Bytes → Option Entry) : Prop where
  entry : ∀ name, d.tree.get? (l ++ [name]) = held name
  deeper : ∀ a b rest, d.tree.get? (l ++ a :: b :: rest) = none

theorem directoryOf_name (root : Path) (dump : Dump) :
    Intake.directoryOf root dump.name = .ok (dump.pathIn root) := by
  unfold Intake.directoryOf
  rw [Dump.ofName_name]
  rfl

theorem writeAll_cons {auth : Auth} {header : Header} {content bytes : Bytes}
    {rest : List (Header × Bytes)}
    (h : writeAll auth ((header, content) :: rest) = ⟨bytes, .ok ()⟩) :
    ∃ frame behind, writeHeader auth header = .ok frame ∧
      writeAll auth rest = ⟨behind, .ok ()⟩ ∧ bytes = frame ++ (content ++ behind) := by
  unfold writeAll at h
  split at h
  · cases h
  · rename_i frame written
    cases hr : writeAll auth rest with
    | mk behind result =>
        rw [hr] at h
        cases h
        exact ⟨frame, behind, written, rfl, List.append_assoc ..⟩

variable {d₀ : Disk} {root : Path} {k : Location} {dump : Dump} {place link : Option Entry}
  {s s' : Intake} {pointsTo : String}

theorem Holds.received {d d' : Disk} {l : Location} {held : Bytes → Option Entry} {name : String}
    {content : Bytes} {dump : String} {size : UInt64} {checksum : UInt32} (h : Holds d l held)
    (got : ∀ m, d'.tree.get? m =
      if m = l ++ [Bytes.ofText (Intake.temporaryName name)] then none
      else if m = l ++ [Bytes.ofText name] then some (.file content)
      else if m = l then some .directory
      else d.tree.get? m) :
    Holds d' l (arrive held (.file dump name size checksum, content)) := by
  refine ⟨fun entry => ?_, fun a b rest => ?_⟩
  · rw [got, arrive]
    simp only [List.append_cancel_left_eq, List.cons.injEq, and_true, h.entry]
    simp
  · rw [got]
    simp [h.deeper]

theorem Holds.entered {d d' : Disk} {l : Location} {held : Bytes → Option Entry}
    (h : Holds d l held)
    (got : ∀ m, d'.tree.get? m = if m = l then some .directory else d.tree.get? m) :
    Holds d' l held := by
  refine ⟨fun entry => ?_, fun a b rest => ?_⟩
  · rw [got, if_neg (by simp), h.entry]
  · rw [got, if_neg (by simp), h.deeper]

theorem Holds.placed {d d' : Disk} {l : Location} {held : Bytes → Option Entry} {dump : String}
    (h : Holds d l held)
    (got : ∀ m, d'.tree.get? m =
      if m = l ++ [linkEntry] then some (.link (Bytes.ofText pointsTo))
      else if m = l then some .directory
      else d.tree.get? m) :
    Holds d' l (arrive held (.parentLink dump pointsTo, [])) := by
  refine ⟨fun entry => ?_, fun a b rest => ?_⟩
  · rw [got, arrive]
    simp [h.entry]
  · rw [got]
    simp [h.deeper]

theorem map_eq_error {r : Except TransferError Unit} (f : Unit → Option String)
    (failed : r ≠ .ok ()) : ∃ e, r.map f = .error e := by
  cases r with
  | ok => exact absurd rfl failed
  | error e => exact ⟨e, rfl⟩

theorem pathIn_of_name (root : Path) {x y : Dump} (same : x.name = y.name) :
    x.pathIn root = y.pathIn root := congrArg root.joinText same

/-- Whatever comes of a header, it changes nothing but the directory of its dump. -/
theorem Within.apply {header : Header} {r : Except TransferError (Option String)}
    (w : Within d₀ s.disk (k ++ [dump.entryName]) place link)
    (roots : d₀.tree.RootsBeside d₀.cwd root k dump.entryName)
    (unlinked : ∀ target, place ≠ some (.link target)) (named : header.dump = dump.name)
    (h : Intake.apply root s header = (r, s')) :
    s'.disk = s.disk ∧ (∃ e, r = .error e) ∨
      ∃ link', Within d₀ s'.disk (k ++ [dump.entryName]) (some .directory) link' := by
  cases headerReceipt h with
  | refused => exact .inl ⟨rfl, _, rfl⟩
  | file x plainName received same =>
      subst same
      rw [pathIn_of_name root named] at received
      exact (w.receiveFile roots unlinked plainName received).imp
        (fun same => ⟨same.1, map_eq_error _ same.2⟩) fun within => ⟨link, within⟩
  | parentLink x _ placed same =>
      subst same
      rw [pathIn_of_name root named] at placed
      exact (w.placeLink roots unlinked placed).imp
        (fun same => ⟨same.1, map_eq_error _ same.2⟩) (Exists.imp fun _ => And.left)
  | done x made same =>
      subst same
      rw [pathIn_of_name root named] at made
      exact (w.makeDirectory roots unlinked made).2.imp
        (fun same => ⟨same.1, map_eq_error _ same.2⟩) fun entered => ⟨link, entered.1⟩

/-- What the receiver asks of a header before it does anything for it. -/
def Header.isAcceptable : Header → Prop
  | .file _ name _ _ => Intake.isPlainName name = true
  | .parentLink _ pointsTo => Intake.checkLink pointsTo = .ok ()
  | .done _ => True

theorem acceptable_of_apply {header : Header} {done : Option String}
    (h : Intake.apply root s header = (.ok done, s')) : header.isAcceptable := by
  cases headerReceipt h with
  | file _ plainName => exact plainName
  | parentLink _ sibling => exact sibling
  | done => trivial

/-- What comes of a header that is accepted. -/
theorem Within.apply_ok {header : Header} {done : Option String}
    (w : Within d₀ s.disk (k ++ [dump.entryName]) place link)
    (roots : d₀.tree.RootsBeside d₀.cwd root k dump.entryName)
    (unlinked : ∀ target, place ≠ some (.link target)) (named : header.dump = dump.name)
    (h : Intake.apply root s header = (.ok done, s')) :
    done = header.completed? ∧ ∃ content, content.length = header.contentLength ∧
      s.stream.flatten = content ++ s'.stream.flatten ∧
      Within d₀ s'.disk (k ++ [dump.entryName]) (some .directory) (header.linkAfter link) ∧
      ∀ held, Holds s.disk (k ++ [dump.entryName]) held →
        Holds s'.disk (k ++ [dump.entryName]) (arrive held (header, content)) := by
  cases headerReceipt h with
  | @file x _ _ _ _ r _ plainName received same =>
      cases r <;> cases same
      rw [pathIn_of_name root named] at received
      obtain ⟨_, failed⟩ | within := w.receiveFile roots unlinked plainName received
      · exact absurd rfl failed
      obtain ⟨content, length, flat, contents⟩ :=
        w.receiveFile_ok roots unlinked plainName received
      exact ⟨rfl, content, length, flat, within, fun held holds => holds.received contents⟩
  | @parentLink x target _ r _ _ placed same =>
      cases r <;> cases same
      rw [pathIn_of_name root named] at placed
      have stream := Intake.stream_placeLink (dump.pathIn root) target s
      rw [placed] at stream
      obtain ⟨_, failed⟩ | ⟨link', within, same⟩ := w.placeLink roots unlinked placed
      · exact absurd rfl failed
      obtain rfl := same rfl
      exact ⟨rfl, [], rfl, (congrArg List.flatten stream).symm, within,
        fun held holds => holds.placed (w.placeLink_ok roots unlinked placed)⟩
  | @done x _ r _ made same =>
      cases r <;> cases same
      rw [pathIn_of_name root named] at made
      obtain ⟨stream, within, entered⟩ := w.makeDirectory_ok roots unlinked made
      exact ⟨rfl, [], rfl, (congrArg List.flatten stream).symm, within,
        fun held holds => holds.entered entered⟩

theorem apply_fits {header : Header} {content behind : Bytes} {done : Option String}
    (fits : Fits dump pointsTo (header, content))
    (w : Within d₀ s.disk (k ++ [dump.entryName]) place link)
    (roots : d₀.tree.RootsBeside d₀.cwd root k dump.entryName)
    (unlinked : ∀ target, place ≠ some (.link target))
    (flat : s.stream.flatten = content ++ behind)
    (h : Intake.apply root s header = (.ok done, s')) :
    done = none ∧ s'.stream.flatten = behind ∧
      Within d₀ s'.disk (k ++ [dump.entryName]) (some .directory)
        (if isLink (header, content) then some (.link (Bytes.ofText pointsTo)) else link) ∧
      ∀ held, Holds s.disk (k ++ [dump.entryName]) held →
        Holds s'.disk (k ++ [dump.entryName]) (arrive held (header, content)) := by
  have named : header.dump = dump.name := by
    cases header with
    | file | parentLink => exact fits.1
    | done d => exact fits.elim
  have announced : content.length = header.contentLength := by
    cases header with
    | file => exact fits.2
    | parentLink => exact congrArg List.length fits.2.2
    | done d => exact fits.elim
  obtain ⟨rfl, taken, length, flat', within, holds⟩ := w.apply_ok roots unlinked named h
  obtain ⟨rfl, rfl⟩ := List.append_inj (flat'.symm.trans flat) (length.trans announced.symm)
  cases header with
  | file => exact ⟨rfl, rfl, within, holds⟩
  | parentLink d target =>
      obtain ⟨_, rfl, _⟩ := fits
      exact ⟨rfl, rfl, within, holds⟩
  | done d => exact fits.elim

/-- What a transfer leaves behind that arrives as a whole. -/
theorem receive_fits {auth serving : Auth} {ps : List (Header × Bytes)} {bytes : Bytes}
    {name : String} (fits : ∀ p ∈ ps, Fits dump pointsTo p)
    (written : writeAll auth (ps ++ [(.done dump.name, [])]) = ⟨bytes, .ok ()⟩)
    (flat : s.stream.flatten = bytes)
    (w : Within d₀ s.disk (k ++ [dump.entryName]) place link)
    (roots : d₀.tree.RootsBeside d₀.cwd root k dump.entryName)
    (unlinked : ∀ target, place ≠ some (.link target))
    (h : Intake.receive serving root s = (.ok name, s')) :
    Within d₀ s'.disk (k ++ [dump.entryName]) (some .directory)
        (if ps.any isLink then some (.link (Bytes.ofText pointsTo)) else link) ∧
      (∀ p ∈ ps, p.1.isAcceptable) ∧
      ∀ held, Holds s.disk (k ++ [dump.entryName]) held →
        Holds s'.disk (k ++ [dump.entryName]) (ps.foldl arrive held) := by
  induction ps generalizing s bytes place link with
  | nil =>
      obtain ⟨frame, behind, header, _, rfl⟩ := writeAll_cons written
      rw [Intake.receive] at h
      split at h
      · cases h
      rename_i stream read
      obtain ⟨rfl, _⟩ := readHeader_writeHeader header flat read
      split at h
      · cases h
      · rename_i applied
        cases h
        obtain ⟨_, _, _, _, within, holds⟩ :=
          w.apply_ok (s := ⟨s.disk, stream⟩) roots unlinked rfl applied
        exact ⟨within, List.forall_mem_nil _, holds⟩
      · rename_i applied
        cases (w.apply_ok (s := ⟨s.disk, stream⟩) roots unlinked rfl applied).1
  | cons p ps ih =>
      obtain ⟨header, content⟩ := p
      obtain ⟨frame, behind, first, rest, rfl⟩ := writeAll_cons written
      rw [Intake.receive] at h
      split at h
      · cases h
      rename_i header' stream read
      obtain ⟨rfl, flat⟩ := readHeader_writeHeader first flat read
      have fit := fits _ (List.mem_cons_self ..)
      split at h
      · cases h
      · rename_i applied
        cases (apply_fits (s := ⟨s.disk, stream⟩) fit w roots unlinked flat applied).1
      · rename_i applied
        obtain ⟨_, flat, w, arrived⟩ :=
          apply_fits (s := ⟨s.disk, stream⟩) fit w roots unlinked flat applied
        obtain ⟨after, acceptable, holds⟩ := ih (fun p hp => fits p (List.mem_cons_of_mem _ hp))
          rest flat w (fun target same => by cases same) h
        refine ⟨?_, List.forall_mem_cons.2 ⟨acceptable_of_apply applied, acceptable⟩,
          fun held before => holds _ (arrived held before)⟩
        rw [List.any_cons]
        cases hl : isLink (header', content) <;> rw [hl] at after
        · exact after
        · rw [Bool.true_or, if_pos rfl]
          split at after <;> exact after

end LiveMigration.Transfer
