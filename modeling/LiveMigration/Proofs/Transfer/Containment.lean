import LiveMigration.Proofs.Disk.Operations
import LiveMigration.Proofs.Transfer.Receipt
import LiveMigration.Transfer.Sender

/-!
What a receiver can do to its disk, whatever it is sent. It makes directories of dumps, and
files and links in them; nothing is written through a link, and the only links are those from
a dump to its parent. All this needs is a dump root that is there and has no other links in
it, which stays so with every change.
-/

namespace LiveMigration.Transfer

open Lineage

/-- All links below a location are links of dumps to their parents. -/
def OnlyParentLinks (t : FileTree) (k : Location) : Prop :=
  ∀ l target, l ≠ [] → t.get? (k ++ l) = some (.link target) →
    ∃ x : Dump, l = [x.entryName, linkEntry]

/-- The changes that a receiver may make to a tree with its dump root at `k`. -/
inductive Contained (k : Location) (t : FileTree) : Change → Prop
  | directory (x : Dump) (vacant : t.get? (k ++ [x.entryName]) = none) :
      Contained k t (.put (k ++ [x.entryName]) .directory)
  /-- A file is made, or replaces what is neither a directory nor a link. -/
  | file (x : Dump) {name : Bytes} {content : Bytes} (o : Path.Ordinary name)
      (inside : t.get? (k ++ [x.entryName]) = some .directory)
      (noWay : ∀ e, t.get? (k ++ [x.entryName] ++ [name]) = some e → ¬ e.LeadsOn) :
      Contained k t (.put (k ++ [x.entryName] ++ [name]) (.file content))
  | removal (x : Dump) {name : Bytes} (o : Path.Ordinary name)
      (inside : t.get? (k ++ [x.entryName]) = some .directory) :
      Contained k t (.erase (k ++ [x.entryName] ++ [name]))
  | link (x y : Dump) (inside : t.get? (k ++ [x.entryName]) = some .directory)
      (vacant : t.get? (k ++ [x.entryName] ++ [linkEntry]) = none) :
      Contained k t (.put (k ++ [x.entryName] ++ [linkEntry]) (.link (Bytes.ofText y.parentPath)))

/-- A disk after changes that a receiver may make. -/
inductive Stays (k : Location) (d : Disk) : Disk → Prop
  | start : Stays k d d
  | change {d' : Disk} {c : Change} (s : Stays k d d') (h : Contained k d'.tree c) :
      Stays k d (d'.change c)

/-- The changes are those that the journal has noted since. -/
theorem Stays.journal {k : Location} {d d' : Disk} (s : Stays k d d') :
    ∃ changes, d'.journal = d.journal ++ changes ∧
      d'.tree = changes.foldl FileTree.apply d.tree ∧
      ∀ before c behind, changes = before ++ c :: behind →
        Contained k (before.foldl FileTree.apply d.tree) c := by
  induction s with
  | start => exact ⟨[], (List.append_nil _).symm, rfl, fun before c behind none => by simp at none⟩
  | @change d' c _ h ih =>
      obtain ⟨changes, noted, tree, each⟩ := ih
      refine ⟨changes ++ [c], ?_, ?_, ?_⟩
      · rw [← List.append_assoc, ← noted]
        rfl
      · rw [List.foldl_append, ← tree]
        rfl
      · intro before c' behind same
        obtain rfl | ⟨behind, x, rfl⟩ := List.eq_nil_or_concat behind
        · obtain ⟨rfl, only⟩ := List.append_inj' same rfl
          obtain rfl := (List.cons.inj only).1
          rw [← tree]
          exact h
        · rw [List.concat_eq_append, ← List.cons_append, ← List.append_assoc] at same
          exact each before c' behind (List.append_inj' same rfl).1

variable {d₀ d d' : Disk} {root : Path} {k : Location} {x : Dump} {name : Bytes} {c : Change}
  {s s' : Intake}

theorem place_ne_nil (k : Location) (x : Dump) (name : Bytes) :
    k ++ [x.entryName] ++ [name] ≠ [] := by
  simp

/-! ## The dump root -/

/-- A dump root that is there, with no other links than those to parents. -/
structure DumpRoot (d : Disk) (root : Path) (k : Location) : Prop where
  leads : d.Leads root k
  links : OnlyParentLinks d.tree k

namespace DumpRoot

theorem unlinked (r : DumpRoot d root k) (target : Bytes) :
    d.tree.get? (k ++ [x.entryName]) ≠ some (.link target) := by
  intro found
  obtain ⟨y, same⟩ := r.links _ target (List.cons_ne_nil _ _) found
  cases (List.cons.inj same).2

theorem plain (r : DumpRoot d root k) (other : name ≠ linkEntry) (target : Bytes) :
    d.tree.get? (k ++ [x.entryName] ++ [name]) ≠ some (.link target) := by
  rw [List.append_assoc]
  intro found
  obtain ⟨y, same⟩ := r.links _ target (List.cons_ne_nil _ _) found
  exact other (List.cons.inj (List.cons.inj same).2).1

/-- The path of a dump leads to its directory. -/
theorem inside (r : DumpRoot d root k) (there : d.tree.get? (k ++ [x.entryName]) = some .directory) :
    d.Leads (x.pathIn root) (k ++ [x.entryName]) :=
  r.leads.enter x.ordinary_entryName (Nat.le_trans x.length_entryName (by decide)) there

end DumpRoot

namespace Contained

theorem onlyParentLinks {t : FileTree} (h : Contained k t c) (links : OnlyParentLinks t k) :
    OnlyParentLinks (t.apply c) k := by
  intro l target ne found
  cases h with
  | directory y vacant =>
      rw [FileTree.apply, FileTree.get?_put _ _ _ _ (by simp)] at found
      split at found
      · cases found
      · exact links l target ne found
  | file y o inside noWay =>
      rw [FileTree.apply, FileTree.get?_put _ _ _ _ (place_ne_nil k y _)] at found
      split at found
      · cases found
      · exact links l target ne found
  | removal y o inside =>
      rw [FileTree.apply, FileTree.get?_erase _ _ _ (place_ne_nil k y _)] at found
      split at found
      · cases found
      · exact links l target ne found
  | link y z inside vacant =>
      rw [FileTree.apply, FileTree.get?_put _ _ _ _ (place_ne_nil k y _)] at found
      split at found
      · rename_i same
        rw [List.append_assoc] at same
        exact ⟨y, List.append_cancel_left same⟩
      · exact links l target ne found

/-- Directories and links stay, unless one is removed. -/
theorem keeps {t : FileTree} (h : Contained k t c)
    (kept : ∀ l e, c = .erase l → t.get? l = some e → ¬ e.LeadsOn) : t.Keeps (t.apply c) := by
  have put {m : Location} {new : Entry} (ne : m ≠ [])
      (noWay : ∀ e, t.get? m = some e → ¬ e.LeadsOn) : t.Keeps (t.put m new) := by
    intro l e leadsOn found
    rw [FileTree.get?_put _ _ _ _ ne]
    split
    · rename_i same
      exact absurd leadsOn (noWay e (same ▸ found))
    · exact found
  have free {m : Location} (vacant : t.get? m = none) : ∀ e, t.get? m = some e → ¬ e.LeadsOn := by
    intro e found
    rw [vacant] at found
    cases found
  cases h with
  | directory y vacant => exact put (by simp) (free vacant)
  | file y o inside noWay => exact put (place_ne_nil k y _) noWay
  | link y z inside vacant => exact put (place_ne_nil k y _) (free vacant)
  | removal y o inside =>
      intro l e leadsOn found
      rw [FileTree.apply, FileTree.get?_erase _ _ _ (place_ne_nil k y _)]
      split
      · rename_i same
        exact absurd leadsOn (kept _ e rfl (same ▸ found))
      · exact found

end Contained

/-! ## Steps -/

/-- A disk on which a receiver may go on. -/
structure Confined (d₀ : Disk) (root : Path) (k : Location) (d : Disk) : Prop where
  stays : Stays k d₀ d
  dumps : DumpRoot d root k

namespace Confined

theorem change (w : Confined d₀ root k d) (h : Contained k d.tree c)
    (kept : ∀ l e, c = .erase l → d.tree.get? l = some e → ¬ e.LeadsOn) :
    Confined d₀ root k (d.change c) :=
  ⟨w.stays.change h, w.dumps.leads.keep (h.keeps kept), h.onlyParentLinks w.dumps.links⟩

theorem put {l : Location} {e : Entry} (w : Confined d₀ root k d)
    (h : Contained k d.tree (.put l e)) : Confined d₀ root k (d.change (.put l e)) :=
  w.change h nofun

theorem makeDirectory {r : Except TransferError Unit} (w : Confined d₀ root k s.disk)
    (h : Intake.makeDirectory (x.pathIn root) s = (r, s')) :
    Confined d₀ root k s'.disk ∧
      (r = .ok () → s'.disk.tree.get? (k ++ [x.entryName]) = some .directory) := by
  obtain ⟨made, created, ok_iff, _⟩ := createDirectories_of_makeDirectory h
  obtain ⟨vacant, same⟩ | ⟨same, there⟩ := Disk.createDirectories_cases w.dumps.leads
    x.ordinary_entryName w.dumps.unlinked created
  · rw [same]
    refine ⟨w.put (.directory x vacant), fun _ => ?_⟩
    exact (FileTree.get?_put _ _ _ _ (by simp)).trans (if_pos rfl)
  · rw [same]
    exact ⟨w, fun ok => there (ok_iff.1 ok)⟩

end Confined

/-- A disk on which a file of a dump is open. -/
structure Writing (d₀ : Disk) (root : Path) (k : Location) (x : Dump) (name : Bytes) (d : Disk) :
    Prop extends Confined d₀ root k d where
  there : d.tree.get? (k ++ [x.entryName]) = some .directory
  opened : ∃ content, d.tree.get? (k ++ [x.entryName] ++ [name]) = some (.file content)

theorem Writing.noWay (w : Writing d₀ root k x name d) (e : Entry)
    (found : d.tree.get? (k ++ [x.entryName] ++ [name]) = some e) : ¬ e.LeadsOn := by
  obtain ⟨content, file⟩ := w.opened
  rw [file] at found
  cases found
  exact id

theorem Confined.write (w : Confined d₀ root k d) (content : Bytes)
    (there : d.tree.get? (k ++ [x.entryName]) = some .directory) (o : Path.Ordinary name)
    (noWay : ∀ e, d.tree.get? (k ++ [x.entryName] ++ [name]) = some e → ¬ e.LeadsOn) :
    Writing d₀ root k x name
      (d.change (.put (k ++ [x.entryName] ++ [name]) (.file content))) := by
  refine ⟨w.put (.file x o there noWay), ?_, content, ?_⟩
  · refine (FileTree.get?_put _ _ _ _ (place_ne_nil k x name)).trans ((if_neg ?_).trans there)
    simp
  · exact (FileTree.get?_put _ _ _ _ (place_ne_nil k x name)).trans (if_pos rfl)

theorem Writing.takeContent {remaining : Nat} {register : UInt32} {arrived : Intake.Arrived}
    (w : Writing d₀ root k x name s.disk) (o : Path.Ordinary name)
    (h : Intake.takeContent (k ++ [x.entryName] ++ [name]) remaining register s = (arrived, s')) :
    Writing d₀ root k x name s'.disk := by
  fun_induction Intake.takeContent (k ++ [x.entryName] ++ [name]) remaining register s with
  | case1 | case2 =>
      cases h
      exact w
  | case3 remaining register s positive b bytes stream read ih =>
      refine ih ?_ h
      obtain ⟨content, file⟩ := w.opened
      dsimp only
      rw [Disk.append, file]
      exact w.toConfined.write _ w.there o w.noWay

theorem Writing.remove (w : Writing d₀ root k x name d) (o : Path.Ordinary name) :
    Confined d₀ root k (d.change (.erase (k ++ [x.entryName] ++ [name]))) := by
  refine w.change (.removal x o w.there) ?_
  rintro l e ⟨⟩
  exact w.noWay e

theorem Writing.discard (w : Writing d₀ root k x name s.disk) (o : Path.Ordinary name) :
    Confined d₀ root k (s.discard ((x.pathIn root).join name)).disk := by
  unfold Intake.discard
  cases removed : s.disk.removeFile ((x.pathIn root).join name) with
  | error => exact w.toConfined
  | ok disk =>
      obtain rfl := Disk.removeFile_cases (w.dumps.inside w.there) o removed
      exact w.remove o

theorem Writing.rename {other : Bytes} (w : Writing d₀ root k x name d) (o : Path.Ordinary name)
    (o' : Path.Ordinary other) (noLink : other ≠ linkEntry)
    (h : d.renameFile ((x.pathIn root).join name) ((x.pathIn root).join other) = .ok d') :
    Confined d₀ root k d' := by
  have leads := w.dumps.inside w.there
  obtain ⟨e, found, ⟨_, rfl⟩ | rfl⟩ := Disk.renameFile_cases leads o o' h
  · exact w.toConfined
  obtain ⟨content, file⟩ := w.opened
  obtain rfl := Option.some.inj (file.symm.trans found)
  have noWay (e : Entry) (there : d.tree.get? (k ++ [x.entryName] ++ [other]) = some e) :
      ¬ e.LeadsOn := by
    cases e with
    | directory => exact absurd there (Disk.replaced_of_renameFile leads o' h)
    | link target => exact absurd there (w.dumps.plain noLink target)
    | file | special => exact id
  have moved := w.toConfined.write content w.there o' noWay
  have still : (d.tree.put (k ++ [x.entryName] ++ [other]) (.file content)).get?
      (k ++ [x.entryName] ++ [name]) = some (.file content) := by
    rw [FileTree.get?_put _ _ _ _ (place_ne_nil k x other), found, ite_self]
  exact Writing.remove ⟨moved.toConfined, moved.there, content, still⟩ o

theorem Confined.receiveFile {name : String} {size : UInt64} {expected : UInt32}
    {r : Except TransferError Unit} (w : Confined d₀ root k s.disk)
    (plainName : Intake.isPlainName name = true)
    (h : Intake.receiveFile (x.pathIn root) name size expected s = (r, s')) :
    Confined d₀ root k s'.disk := by
  obtain ⟨o, other⟩ := ordinary_of_isPlainName plainName
  obtain ⟨o', other'⟩ := ordinary_temporaryName o
  have written {opened s' : Intake} {l : Location} {disk : Disk} {arrived : Intake.Arrived}
      (made : Intake.makeDirectory (x.pathIn root) s = (.ok (), opened))
      (created : opened.disk.createFile
        ((x.pathIn root).joinText (Intake.temporaryName name)) = .ok (l, disk))
      (taken : Intake.takeContent l size.toNat Crc32.start ⟨disk, opened.stream⟩ = (arrived, s')) :
      Writing d₀ root k x (Bytes.ofText (Intake.temporaryName name)) s'.disk := by
    obtain ⟨w, there⟩ := w.makeDirectory made
    have there := there rfl
    have leads := w.dumps.inside there
    obtain ⟨rfl, rfl⟩ := Disk.createFile_cases leads o' (w.dumps.plain other') created
    refine Writing.takeContent (s := ⟨_, opened.stream⟩) (w.write [] there o' ?_) o' taken
    intro e found
    obtain ⟨content, rfl⟩ :=
      Disk.replaced_of_createFile leads o' (w.dumps.plain other') created found
    exact id
  cases fileReceipt h with
  | noDirectory made | noFile made => exact (w.makeDirectory made).1
  | discarded made created taken => exact (written made created taken).discard o'
  | unnamed made created taken => exact (written made created taken).toConfined
  | named made created taken renamed =>
      exact (written made created taken).rename o' o other renamed

/-- Once a link was removed the root may be gone, but then no link is made in its place. -/
theorem Confined.clearLink {disk : Disk} (w : Confined d₀ root k d)
    (there : d.tree.get? (k ++ [x.entryName]) = some .directory)
    (cleared : disk = d ∨ d.removeFile ((x.pathIn root).joinText linkName) = .ok disk) :
    Stays k d₀ disk ∧ ∀ {target : Bytes} {final : Disk},
      disk.createLink target ((x.pathIn root).joinText linkName) = .ok final →
        Confined d₀ root k disk ∧
          disk.tree.get? (k ++ [x.entryName]) = some .directory := by
  obtain rfl | removed := cleared
  · exact ⟨w.stays, fun _ => ⟨w, there⟩⟩
  obtain rfl := Disk.removeFile_cases (w.dumps.inside there) ordinary_linkEntry removed
  have removal := Contained.removal x ordinary_linkEntry there
  have stays := w.stays.change removal
  refine ⟨stays, fun linked => ⟨⟨stays, ?_, removal.onlyParentLinks w.dumps.links⟩, ?_⟩⟩
  · obtain ⟨l, free⟩ := Disk.free_of_createLink linked
    refine w.dumps.leads.spare ?_ x.ordinary_entryName ordinary_linkEntry free
    intro m e _ found
    have erased := FileTree.get?_erase d.tree _ m (place_ne_nil k x linkEntry)
    by_cases same : m = k ++ [x.entryName] ++ [linkEntry]
    · exact .inr (erased.trans (if_pos same))
    · have kept := (erased.trans (if_neg same)).trans found
      exact .inl ⟨kept, kept⟩
  · refine (FileTree.get?_erase _ _ _ (place_ne_nil k x linkEntry)).trans ((if_neg ?_).trans there)
    simp

theorem Confined.placeLink {y : Dump} {r : Except TransferError Unit}
    (w : Confined d₀ root k s.disk)
    (h : Intake.placeLink (x.pathIn root) y.parentPath s = (r, s')) :
    Stays k d₀ s'.disk ∧ (r = .ok () → Confined d₀ root k s'.disk) := by
  cases linkReceipt h with
  | noDirectory made | kept made => exact ⟨(w.makeDirectory made).1.stays, nofun⟩
  | cleared made cleared =>
      obtain ⟨w, there⟩ := w.makeDirectory made
      exact ⟨(w.clearLink (there rfl) cleared).1, nofun⟩
  | placed made cleared linked =>
      obtain ⟨w, there⟩ := w.makeDirectory made
      obtain ⟨w, there⟩ := (w.clearLink (there rfl) cleared).2 linked
      obtain ⟨vacant, rfl⟩ :=
        Disk.createLink_cases (w.dumps.inside there) ordinary_linkEntry linked
      have w := w.put (.link x y there vacant)
      exact ⟨w.stays, fun _ => w⟩

/-- After a header that was not refused the receiver may go on. -/
theorem Confined.apply {header : Header} {r : Except TransferError (Option String)}
    (w : Confined d₀ root k s.disk) (h : Intake.apply root s header = (r, s')) :
    Stays k d₀ s'.disk ∧ (r.isOk = true → Confined d₀ root k s'.disk) := by
  cases headerReceipt h with
  | refused => exact ⟨w.stays, fun _ => w⟩
  | file x plainName received =>
      have w := w.receiveFile plainName received
      exact ⟨w.stays, fun _ => w⟩
  | @parentLink x _ _ result _ sibling placed same =>
      obtain ⟨y, rfl⟩ := parentPath_of_checkLink sibling
      refine (w.placeLink placed).imp_right fun more ok => more ?_
      cases result with
      | ok => rfl
      | error =>
          cases same
          cases ok
  | done x made =>
      have w := (w.makeDirectory made).1
      exact ⟨w.stays, fun _ => w⟩

/-- Whatever is sent, the receiver makes such changes only. -/
theorem Confined.receive {auth : Auth} (w : Confined d₀ root k s.disk) :
    Stays k d₀ (Intake.receive auth root s).2.disk := by
  fun_induction Intake.receive auth root s with
  | case1 s e unread => exact w.stays
  | case2 s header stream read e next applied => exact (w.apply (s := ⟨s.disk, stream⟩) applied).1
  | case3 s header stream read dump next applied =>
      exact (w.apply (s := ⟨s.disk, stream⟩) applied).1
  | case4 s header stream read next applied ih =>
      exact ih ((w.apply (s := ⟨s.disk, stream⟩) applied).2 rfl)

/-- From any bytes at all a receiver makes only directories of dumps, entries of theirs, and links
from a dump to another one beside it. -/
theorem receiver_containment {root : Path} (auth : Auth) (stream : Inflow)
    (present : d.find root = .ok (.present k .directory)) (links : OnlyParentLinks d.tree k) :
    ∃ changes,
      (Intake.receive auth root ⟨d, stream⟩).2.disk.journal = d.journal ++ changes ∧
      (Intake.receive auth root ⟨d, stream⟩).2.disk.tree = changes.foldl FileTree.apply d.tree ∧
      ∀ before c behind, changes = before ++ c :: behind →
        Contained k (before.foldl FileTree.apply d.tree) c := by
  have dumps : DumpRoot d root k := ⟨FileTree.leads_of_find present, links⟩
  exact (Confined.receive (s := ⟨d, stream⟩) ⟨.start, dumps⟩).journal

def sampleOccupant : Dump := ⟨.full, 1, 0⟩

/-- A disk whose only dump has a link that leads out of the dump root. -/
def sampleOccupied : Disk :=
  .ofTree ⟨[([sampleOccupant.entryName], .directory),
    ([sampleOccupant.entryName, linkEntry], .link (Bytes.ofText "/etc"))]⟩ []

/-- A file for that dump, another target for its link, and a file that is to go through it. -/
def sampleIntrusion : Bytes :=
  let checksum := Crc32.finish (Crc32.feedAll Crc32.start [0x31, 0x32])
  (writeAll none [(.file "d1" "a" 2 checksum, [0x31, 0x32]), (.parentLink "d1" "../d0", []),
    (.file "d1" "parent/a" 0 0, [])]).bytes

/-- The file is made under its temporary name and moved, the link is removed and made again; the
second file is refused. -/
theorem receiver_containment_sample :
    sampleOccupied.find ⟨[Path.slash]⟩ = .ok (.present [] .directory) ∧
      ∃ changes, changes.length = 6 ∧
        (Intake.receive none ⟨[Path.slash]⟩ ⟨sampleOccupied, [sampleIntrusion]⟩).2.disk.journal =
          changes ∧
        ∀ before c behind, changes = before ++ c :: behind →
          Contained [] (before.foldl FileTree.apply sampleOccupied.tree) c := by
  have present : sampleOccupied.find ⟨[Path.slash]⟩ = .ok (.present [] .directory) := by
    decide +kernel
  have links : OnlyParentLinks sampleOccupied.tree [] := by
    intro l target ne found
    have mem := FileTree.mem_of_get? found ne
    simp only [List.nil_append, sampleOccupied, Disk.ofTree, List.mem_cons, List.not_mem_nil,
      or_false, Prod.mk.injEq, reduceCtorEq, and_false, false_or] at mem
    exact ⟨sampleOccupant, mem.1⟩
  obtain ⟨changes, noted, _, each⟩ := receiver_containment none [sampleIntrusion] present links
  refine ⟨present, changes, ?_, noted, each⟩
  have six : (Intake.receive none ⟨[Path.slash]⟩
      ⟨sampleOccupied, [sampleIntrusion]⟩).2.disk.journal.length = 6 := by decide +kernel
  rw [noted] at six
  exact six

end LiveMigration.Transfer
