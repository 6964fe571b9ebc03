import LiveMigration.Proofs.Lineage.Scan
import LiveMigration.Proofs.Lineage.WayBack
import LiveMigration.Proofs.Transfer.Interruption

/-!
Recovery after a transfer that broke off. A dump is told from other ones by the name of its
directory, which is there from its first header on, and nothing says that a dump is complete.
So a broken transfer can make a difference to recovery in two ways: a full dump that is new
and later than the others is recovered from, and the way back finds a directory or a link of
this dump that was not there before.
-/

namespace LiveMigration.Lineage

open Transfer

/-- No symbolic links in a dump root, and none in the directory of a dump but its own. -/
structure Unlinked (d : Disk) (k : Location) (x : Dump) : Prop where
  root : ∀ name target, d.tree.get? (k ++ [name]) ≠ some (.link target)
  dump : ∀ name target, d.tree.get? (k ++ [x.entryName] ++ [name]) = some (.link target) →
    name = linkEntry

variable {d d' : Disk} {root : Path} {k : Location} {x y : Dump} {link : Option Entry}

/-- The directory of a full dump is one more that is offered, if it is new. -/
theorem offers_of_within (w : Within d d' (k ++ [x.entryName]) (some .directory) link) :
    Offers (d'.tree.children k) y ↔
      Offers (d.tree.children k) y ∨ x.isFull = true ∧ y = { x with offset := 0 } := by
  have there : (x.entryName, Entry.directory) ∈ d'.tree.children k :=
    FileTree.mem_children.2 (FileTree.mem_of_get? w.place (Within.ne_nil k _))
  have elsewhere (ne : y.entryName ≠ x.entryName) :
      (y.entryName, Entry.directory) ∈ d'.tree.children k ↔
        (y.entryName, Entry.directory) ∈ d.tree.children k := by
    have apart : ¬ k ++ [x.entryName] <+: k ++ [y.entryName] := by
      have := FileTree.apart_of_ne (k := k) ne []
      rwa [List.append_nil] at this
    have same : (k ++ [y.entryName], Entry.directory) ∈ d'.tree.outside (k ++ [x.entryName]) ↔
        (k ++ [y.entryName], Entry.directory) ∈ d.tree.outside (k ++ [x.entryName]) := by
      rw [w.outside]
    rw [FileTree.mem_children, FileTree.mem_children]
    simpa only [FileTree.mem_outside, apart, not_false_iff, and_true] using same
  constructor
  · rintro ⟨full, offset, entry⟩
    by_cases same : y.entryName = x.entryName
    · obtain ⟨kind, sequence⟩ := Dump.entryName_inj.1 same
      refine .inr ⟨?_, ?_⟩
      · rwa [Dump.isFull, ← kind]
      · rw [← kind, ← sequence, ← offset]
    · exact .inl ⟨full, offset, (elsewhere same).1 entry⟩
  · rintro (⟨full, offset, entry⟩ | ⟨full, rfl⟩)
    · by_cases same : y.entryName = x.entryName
      · exact ⟨full, offset, same ▸ there⟩
      · exact ⟨full, offset, (elsewhere same).2 entry⟩
    · exact ⟨full, rfl, there⟩

theorem recover_of_within (found : d.find root = .ok (.present k .directory))
    (found' : d'.find root = .ok (.present k .directory))
    (w : Within d d' (k ++ [x.entryName]) (some .directory) link) :
    recover d' root = recover d root ∨
      x.isFull = true ∧ ¬ Landed d k x ∧ recover d' root = .ok { x with offset := 0 } ∧
        ∀ y, recover d root = .ok y → y.sequence < x.sequence := by
  have still (same : latestFull (d'.tree.children k) = latestFull (d.tree.children k)) :
      recover d' root = recover d root := by
    rw [recover_eq found', recover_eq found, same]
  by_cases new : x.isFull = true ∧ ¬ Offers (d.tree.children k) { x with offset := 0 }
  · obtain ⟨full, unoffered⟩ := new
    have more (y : Dump) : Offers (d'.tree.children k) y ↔
        Offers (d.tree.children k) y ∨ y = { x with offset := 0 } := by
      rw [offers_of_within w, and_iff_right full]
    obtain same | ⟨latest, after⟩ := latestFull_of_one_more more
    · exact .inl (still same)
    · refine .inr ⟨full, fun landed => unoffered ⟨full, rfl, ?_⟩,
        (recover_eq_ok_iff found').2 latest, fun y h => after y ((recover_eq_ok_iff found).1 h)⟩
      exact FileTree.mem_children.2 (FileTree.mem_of_get? landed (Within.ne_nil k _))
  · refine .inl (still (latestFull_congr fun y => ?_))
    refine (offers_of_within w).trans (or_iff_left_of_imp ?_)
    rintro ⟨full, rfl⟩
    exact not_not.1 fun unoffered => new ⟨full, unoffered⟩

theorem agree_of_within (w : Within d d' (k ++ [x.entryName]) (some .directory) link)
    (other : ¬ y.Same x) : Agree d d' k y := by
  have away (rest : Location) : d'.tree.get? (k ++ [y.entryName] ++ rest) =
      d.tree.get? (k ++ [y.entryName] ++ rest) :=
    FileTree.get?_of_outside w.outside
      (FileTree.apart_of_ne (fun same => other (Dump.entryName_inj.1 same)) rest)
  have place := away []
  rw [List.append_nil] at place
  exact ⟨place, away [linkEntry]⟩

/-- Whatever arrives of a dump, recovery gives the same answer as before, unless it goes by a
full dump that is new and later than all others; and the way back from a dump finds the same as
before, unless it comes to the dump that arrived and that has another directory or link now. -/
theorem interrupted_transfer {auth serving : Auth} {before : Option Dump}
    {entries : List (Bytes × Entry)} {stream rest : Inflow} {r : Except TransferError String}
    (found : d.find root = .ok (.present k .directory))
    (beside : d.tree.RootsBeside d.cwd root k x.entryName) (unlinked : Unlinked d k x)
    (cut : IsCut auth (parcels x before entries) stream)
    (received : Intake.receive serving root ⟨d, stream⟩ = (r, ⟨d', rest⟩)) :
    (recover d' root = recover d root ∨
      x.isFull = true ∧ ¬ Landed d k x ∧ recover d' root = .ok { x with offset := 0 } ∧
        ∀ y, recover d root = .ok y → y.sequence < x.sequence) ∧
    ∀ y, reconstruct d' (y.pathIn root) = reconstruct d (y.pathIn root) ∨
      WayBack d k y x ∧ ¬ Agree d d' k x := by
  have start : Within d d (k ++ [x.entryName]) _ _ := ⟨rfl, rfl, rfl, rfl, unlinked.dump⟩
  obtain same | ⟨link, w⟩ := start.receive_of_cut (s := ⟨d, stream⟩) beside
    (unlinked.root x.entryName) cut received
  · obtain rfl : d' = d := same
    exact ⟨.inl rfl, fun y => .inl rfl⟩
  have leads : d.Leads root k := FileTree.leads_of_find found
  have leads' : d'.Leads root k := w.leadsRoot beside
  have found' : d'.find root = .ok (.present k .directory) := leads'.find_of_find found
  refine ⟨recover_of_within found found' w, fun y => or_iff_not_imp_right.2 fun spared => ?_⟩
  refine reconstruct_congr leads leads' unlinked.root fun z way => ?_
  by_cases same : z.Same x
  · have agree : Agree d d' k x := not_not.1 fun changed => spared ⟨way.to_same same, changed⟩
    exact agree.of_same ⟨same.1.symm, same.2.symm⟩
  · exact agree_of_within w same

/-! ## Transfers that break off -/

/-- A transfer of a dump breaks off with an error and leaves this disk. -/
def BreaksOff (root : Path) (d : Disk) (x : Dump) (d' : Disk) : Prop :=
  ∃ (auth : Auth) (before : Option Dump) (entries : List (Bytes × Entry)) (stream rest : Inflow)
    (e : TransferError), IsCut auth (parcels x before entries) stream ∧
      Intake.receive auth root ⟨d, stream⟩ = (.error e, ⟨d', rest⟩)

def topRoot : Path := ⟨[Path.slash]⟩

/-- A dump and another one that builds on it, with something else beside them. -/
def sampleReplica (others : List (Location × Entry)) : Disk :=
  .ofTree ⟨[([Bytes.ofText "d1"], .directory), ([Bytes.ofText "d2"], .directory),
    ([Bytes.ofText "d2", linkEntry], .link (Bytes.ofText "../d1"))] ++ others⟩ []

def sampleParcels (x : Dump) : List (Header × Bytes) :=
  parcels x (some ⟨.pre, 0, 0⟩)
    [(linkEntry, .link (Bytes.ofText "../p0")), (Bytes.ofText "a", .file [0x31])]

/-- The link arrives, and after it no more than the front of the next header. -/
def sampleStream (x : Dump) : Inflow := [(writeAll none (sampleParcels x)).bytes.take 120]

def sampleBreak (root : Path) (d : Disk) (x : Dump) : Disk :=
  (Intake.receive none root ⟨d, sampleStream x⟩).2.disk

theorem isCut_sampleStream (x : Dump) : IsCut none (sampleParcels x) (sampleStream x) := by
  refine isCut_take ?_ 120
  have parted : sampleParcels x = [(.parentLink x.name "../p0", []),
      (.file x.name "a" 1 (Crc32.ofBytes [0x31]), [0x31]), (.done x.name, [])] := by rfl
  rw [parted]
  simp [Header.contentLength]

theorem breaksOff_sample {root : Path} {d : Disk} {x : Dump} {e : TransferError}
    (h : (Intake.receive none root ⟨d, sampleStream x⟩).1 = .error e) :
    BreaksOff root d x (sampleBreak root d x) :=
  ⟨none, _, _, sampleStream x, _, e, isCut_sampleStream x, Prod.ext h rfl⟩

theorem vacant_sample {x : Dump} (l : Location) (new : x.entryName = Bytes.ofText "p3")
    (inside : [] ++ [x.entryName] <+: l) : (sampleReplica []).tree.get? l = none := by
  obtain ⟨rest, rfl⟩ := inside
  rw [new]
  rfl

theorem unlinked_sample : Unlinked (sampleReplica []) [] ⟨.pre, 3, 0⟩ := by
  refine ⟨fun name target linked => ?_, fun name target linked => ?_⟩
  · have mem := FileTree.mem_of_get? linked (List.cons_ne_nil _ _)
    simp [sampleReplica, Disk.ofTree] at mem
  · rw [vacant_sample (x := ⟨.pre, 3, 0⟩) _ (by decide +kernel) (List.prefix_append ..)] at linked
    cases linked

/-- The way back from the second dump ends at the first one. -/
theorem not_wayBack_sample : ¬ WayBack (sampleReplica []) [] ⟨.full, 2, 0⟩ ⟨.pre, 3, 0⟩ := by
  intro way
  cases way with
  | here same => cases same.1
  | @link _ y _ target linked named rest =>
      have first : (sampleReplica []).tree.get? ([] ++ [(⟨.full, 2, 0⟩ : Dump).entryName] ++
          [linkEntry]) = some (.link (Bytes.ofText "../d1")) := by decide +kernel
      obtain rfl : target = Bytes.ofText "../d1" :=
        Entry.link.inj (Option.some.inj (linked.symm.trans first))
      have last : (⟨Bytes.ofText "../d1"⟩ : Path).fileName? =
          some (⟨.full, 1, 0⟩ : Dump).entryName := by decide +kernel
      have same : y.entryName = (⟨.full, 1, 0⟩ : Dump).entryName :=
        Option.some.inj (named.symm.trans last)
      cases rest with
      | here end' => cases (Dump.entryName_inj.1 same).1.symm.trans end'.1
      | link linked =>
          rw [same] at linked
          have none : (sampleReplica []).tree.get? ([] ++ [(⟨.full, 1, 0⟩ : Dump).entryName] ++
              [linkEntry]) = none := by decide +kernel
          cases none.symm.trans linked

theorem interrupted_transfer_sample :
    ∃ d', BreaksOff topRoot (sampleReplica []) ⟨.pre, 3, 0⟩ d' ∧
      Landed d' [] ⟨.pre, 3, 0⟩ ∧
      recover d' topRoot = recover (sampleReplica []) topRoot ∧
      reconstruct d' ((⟨.full, 2, 0⟩ : Dump).pathIn topRoot) =
        reconstruct (sampleReplica []) ((⟨.full, 2, 0⟩ : Dump).pathIn topRoot) := by
  have found : (sampleReplica []).find topRoot = .ok (.present [] .directory) := by
    decide +kernel
  have beside : (sampleReplica []).tree.RootsBeside [] topRoot [] (⟨.pre, 3, 0⟩ : Dump).entryName :=
    FileTree.rootsBeside_of_vacant found fun l => vacant_sample l (by decide +kernel)
  have broken : (Intake.receive none topRoot ⟨sampleReplica [], sampleStream ⟨.pre, 3, 0⟩⟩).1 =
      .error (.io .readingFrame .earlyEnd) := by decide +kernel
  obtain ⟨recovered, back⟩ := interrupted_transfer found beside unlinked_sample
    (isCut_sampleStream ⟨.pre, 3, 0⟩) (Prod.ext broken rfl)
  refine ⟨_, breaksOff_sample broken, by unfold Landed; decide +kernel, ?_, ?_⟩
  · refine recovered.resolve_right ?_
    rintro ⟨full, _⟩
    cases full
  · exact (back _).resolve_right fun changed => not_wayBack_sample changed.1

/-- What a transfer that breaks off can do: another dump is recovered from, or the way back
comes to an end. So it is with a link of another dump if there are more links in the root, or
with the root itself if that is missing or if the link is on the way to it. -/
theorem interruption_disturbs :
    (∃ d', BreaksOff topRoot (sampleReplica []) ⟨.full, 3, 0⟩ d' ∧
      recover (sampleReplica []) topRoot = .ok ⟨.full, 2, 0⟩ ∧
      recover d' topRoot = .ok ⟨.full, 3, 0⟩) ∧
    (∃ d', BreaksOff topRoot (sampleReplica []) ⟨.full, 2, 0⟩ d' ∧
      recover d' topRoot = recover (sampleReplica []) topRoot ∧
      reconstruct (sampleReplica []) (.ofText "/d2") = .ok ["d1", "d2"] ∧
      reconstruct d' (.ofText "/d2") = .error (.dangling (.ofText "/d2/parent"))) ∧
    (∃ others d', BreaksOff topRoot (sampleReplica others) ⟨.pre, 3, 0⟩ d' ∧
      recover d' topRoot = recover (sampleReplica others) topRoot ∧
      reconstruct (sampleReplica others) (.ofText "/d2") = .ok ["d1", "d2"] ∧
      reconstruct d' (.ofText "/d2") = .error (.dangling (.ofText "/d2/parent"))) ∧
    (∃ d', BreaksOff (.ofText "/r") (sampleReplica []) ⟨.pre, 3, 0⟩ d' ∧
      recover (sampleReplica []) (.ofText "/r") =
        .error (.unreadable (.ofText "/r") (.os .noSuchEntry)) ∧
      recover d' (.ofText "/r") = .error (.noFullDump (.ofText "/r"))) ∧
    ∃ d', BreaksOff (.ofText "/d2/parent/..") (sampleReplica []) ⟨.full, 2, 0⟩ d' ∧
      recover (sampleReplica []) (.ofText "/d2/parent/..") = .ok ⟨.full, 2, 0⟩ ∧
      recover d' (.ofText "/d2/parent/..") =
        .error (.unreadable (.ofText "/d2/parent/..") (.os .noSuchEntry)) := by
  have cut (root : Path) (d : Disk) (x : Dump)
      (h : (Intake.receive none root ⟨d, sampleStream x⟩).1 =
        .error (.io .readingFrame .earlyEnd)) := breaksOff_sample h
  refine ⟨⟨_, cut _ _ _ ?_, ?_, ?_⟩, ⟨_, cut _ _ _ ?_, ?_, ?_, ?_⟩,
    ⟨[([Bytes.ofText "p3"], .link (Bytes.ofText "d2"))], _, cut _ _ _ ?_, ?_, ?_, ?_⟩,
    ⟨_, cut _ _ _ ?_, ?_, ?_⟩,
    ⟨_, breaksOff_sample (e := .io .creatingLink (.os .noSuchEntry)) ?_, ?_, ?_⟩⟩ <;>
    decide +kernel

end LiveMigration.Lineage
