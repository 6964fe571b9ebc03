import LiveMigration.Proofs.Disk.Operations
import LiveMigration.Proofs.Dump.Directory
import Mathlib.Data.List.Nodup

/-!
The way back from a dump. It goes over the links from one directory of the dump root to the
next and never twice to the same one. So what is found depends only on the directories and
links that it passes, and not on how much else there is on the disk.
-/

namespace LiveMigration

open Lineage

/-- The directory of a dump is there. -/
def Landed (d : Disk) (k : Location) (dump : Dump) : Prop :=
  d.tree.get? (k ++ [dump.entryName]) = some .directory

namespace Lineage

/-- There are no more dumps in a root than entries on the disk. -/
theorem length_le_entries {d : Disk} {k : Location} {ds : List Dump}
    (distinct : (ds.map Dump.entryName).Nodup) (landed : ∀ x ∈ ds, Landed d k x) :
    ds.length ≤ d.tree.entries.length := by
  rw [← List.length_map (f := Dump.entryName)]
  refine FileTree.length_le_entries (l := k) distinct fun name mem => ?_
  obtain ⟨x, hx, rfl⟩ := List.mem_map.1 mem
  exact ⟨_, landed x hx⟩

/-- The way back from one dump comes to another one. -/
inductive WayBack (d : Disk) (k : Location) : Dump → Dump → Prop
  | here {x y : Dump} (same : x.Same y) : WayBack d k x y
  | link {x y z : Dump} {target : Bytes}
      (linked : d.tree.get? (k ++ [x.entryName] ++ [linkEntry]) = some (.link target))
      (named : (⟨target⟩ : Path).fileName? = some y.entryName) (rest : WayBack d k y z) :
      WayBack d k x z

/-- Two disks have the same of a dump, as far as the way back is concerned. -/
structure Agree (d d' : Disk) (k : Location) (x : Dump) : Prop where
  place : d'.tree.get? (k ++ [x.entryName]) = d.tree.get? (k ++ [x.entryName])
  link : d'.tree.get? (k ++ [x.entryName] ++ [linkEntry]) =
    d.tree.get? (k ++ [x.entryName] ++ [linkEntry])

variable {d d' : Disk} {q root : Path} {k : Location} {x y z : Dump}

theorem Agree.of_same (agree : Agree d d' k x) (same : x.Same y) : Agree d d' k y := by
  have named := Dump.entryName_inj.2 same
  exact ⟨named ▸ agree.place, named ▸ agree.link⟩

theorem WayBack.to_same (way : WayBack d k x y) (same : y.Same z) : WayBack d k x z := by
  induction way with
  | here start => exact .here ⟨start.1.trans same.1, start.2.trans same.2⟩
  | link linked named _ ih => exact .link linked named (ih same)

theorem dumpName_eq_ok {path place : Path} {name : String} (h : dumpName path place = .ok name) :
    ∃ x : Dump, name = x.name ∧ path.fileName? = some x.entryName := by
  unfold dumpName at h
  split at h
  · cases h
  rename_i spelt
  split at h
  · rename_i x named
    cases h
    obtain ⟨bytes, last, text⟩ := Option.bind_eq_some_iff.1 spelt
    refine ⟨x, (Dump.name_of_ofName named).symm, ?_⟩
    rw [last, Bytes.text?_eq_some_iff.1 text, Dump.entryName, Dump.name_of_ofName named]
  · cases h

/-! ## One step -/

theorem namesOf_linkPath (h : q.bytes ≠ []) :
    FileTree.namesOf ((x.pathIn q).joinText linkName).bytes =
      q.names ++ [x.entryName, linkEntry] := by
  have names : (x.pathIn q).names = q.names ++ [x.entryName] :=
    Path.names_join h x.ordinary_entryName
  refine (Path.namesOf_join (bytes_pathIn_ne_nil h) ordinary_linkEntry).trans ?_
  rw [names, List.append_assoc]
  rfl

theorem isAbsolute_linkPath (h : q.bytes ≠ []) :
    ((x.pathIn q).joinText linkName).isAbsolute = q.isAbsolute :=
  (Path.isAbsolute_join (bytes_pathIn_ne_nil h) ordinary_linkEntry).trans
    (Path.isAbsolute_join h x.ordinary_entryName)

section Step

variable (leads : d.Leads q k)
  (unlinked : ∀ name target, d.tree.get? (k ++ [name]) ≠ some (.link target))

omit leads in
include unlinked in
theorem advance_link_ne (directory : Location) (target : Bytes) (rest : List Bytes) :
    d.tree.advance false k [x.entryName, linkEntry] ≠ .link directory target rest := by
  rw [FileTree.advance_pair x.ordinary_entryName ordinary_linkEntry (unlinked x.entryName)]
  intro same
  split at same
  · cases same
  split at same
  · cases same
  · split at same <;> cases same
  · cases same

include leads unlinked

theorem linked_of_inspectEntry {e : Entry}
    (h : d.inspectEntry ((x.pathIn q).joinText linkName) = .ok e) :
    d.tree.get? (k ++ [x.entryName] ++ [linkEntry]) = some e := by
  unfold Disk.inspectEntry Disk.findEntry at h
  split at h
  · rename_i found
    cases h
    have far := leads.done_of_find (namesOf_linkPath leads.nonempty)
      (isAbsolute_linkPath leads.nonempty) (List.cons_ne_nil _ _) (advance_link_ne unlinked) found
    rw [FileTree.advance_pair x.ordinary_entryName ordinary_linkEntry (unlinked x.entryName)]
      at far
    split at far
    · cases far
    split at far
    · cases far
    · split at far
      · cases far
      · exact (Disk.present_of_foundAt (FileTree.Turn.done.inj far).symm).2
    · cases far
  · cases h
  · cases h

theorem inspectEntry_congr (leads' : d'.Leads q k) (agree : Agree d d' k x) :
    d'.inspectEntry ((x.pathIn q).joinText linkName) =
      d.inspectEntry ((x.pathIn q).joinText linkName) := by
  have plain : ∀ target, d'.tree.get? (k ++ [x.entryName]) ≠ some (.link target) := by
    intro target
    rw [agree.place]
    exact unlinked x.entryName target
  have far : d'.tree.advance false k [x.entryName, linkEntry] =
      d.tree.advance false k [x.entryName, linkEntry] := by
    rw [FileTree.advance_pair x.ordinary_entryName ordinary_linkEntry plain,
      FileTree.advance_pair x.ordinary_entryName ordinary_linkEntry (unlinked x.entryName),
      FileTree.foundAt, FileTree.foundAt, agree.place, agree.link]
  have same : d'.findEntry ((x.pathIn q).joinText linkName) =
      d.findEntry ((x.pathIn q).joinText linkName) :=
    leads.find_congr leads' (namesOf_linkPath leads.nonempty)
      (isAbsolute_linkPath leads.nonempty) (List.cons_ne_nil _ _) rfl far
      (advance_link_ne unlinked)
  unfold Disk.inspectEntry
  rw [same]

theorem isDirectory_congr (leads' : d'.Leads q k) (agree : Agree d d' k x) :
    d'.isDirectory (q.joinText x.name) = d.isDirectory (q.joinText x.name) := by
  have o := x.ordinary_entryName
  have plain : ∀ target, d'.tree.get? (k ++ [x.entryName]) ≠ some (.link target) := by
    intro target
    rw [agree.place]
    exact unlinked x.entryName target
  have far : d'.tree.advance true k [x.entryName] = d.tree.advance true k [x.entryName] := by
    rw [FileTree.advance_single o fun _ => plain,
      FileTree.advance_single o fun _ => unlinked x.entryName,
      FileTree.foundAt, FileTree.foundAt, agree.place]
  have stays : ∀ directory target rest,
      d.tree.advance true k [x.entryName] ≠ .link directory target rest := by
    intro directory target rest
    rw [FileTree.advance_single o fun _ => unlinked x.entryName]
    split <;> intro same <;> cases same
  have same : d'.find (q.joinText x.name) = d.find (q.joinText x.name) :=
    leads.find_congr leads' (Path.namesOf_join leads.nonempty o)
      (Path.isAbsolute_join leads.nonempty o) (List.cons_ne_nil _ _) rfl far stays
  unfold Disk.isDirectory Disk.inspect
  rw [same]

/-- A step back goes over a link to a directory. -/
theorem linked_of_predecessor {name : String}
    (h : predecessor d (x.pathIn q) = .ok (some name)) :
    ∃ y target, name = y.name ∧ Landed d k y ∧
      d.tree.get? (k ++ [x.entryName] ++ [linkEntry]) = some (.link target) ∧
      (⟨target⟩ : Path).fileName? = some y.entryName := by
  unfold predecessor at h
  dsimp only at h
  split at h
  · cases h
  · cases h
  · rename_i target inspected
    have linked := linked_of_inspectEntry leads unlinked inspected
    cases named : dumpName ⟨target⟩ ((x.pathIn q).joinText linkName) with
    | error e =>
        rw [named] at h
        cases h
    | ok other =>
        rw [named] at h
        simp only [bind, Except.bind, pure, Except.pure] at h
        split at h
        · rename_i there
          cases h
          obtain ⟨y, rfl, last⟩ := dumpName_eq_ok named
          obtain ⟨q', short, beside⟩ := sibling_join (d := x) leads.nonempty y.name
          rw [beside] at there
          have landed : Landed d k y := Disk.directory_of_isDirectory (leads.shortened short)
            y.ordinary_entryName (unlinked y.entryName) there
          exact ⟨y, target, rfl, landed, linked, last⟩
        · cases h
  · cases h

theorem predecessor_congr (leads' : d'.Leads q k)
    (agree : ∀ y, WayBack d k x y → Agree d d' k y) :
    predecessor d' (x.pathIn q) = predecessor d (x.pathIn q) := by
  have same := inspectEntry_congr leads unlinked leads' (agree x (.here ⟨rfl, rfl⟩))
  unfold predecessor
  dsimp only
  rw [same]
  split
  · rfl
  · rfl
  · rename_i target inspected
    have linked := linked_of_inspectEntry leads unlinked inspected
    cases named : dumpName ⟨target⟩ ((x.pathIn q).joinText linkName) with
    | error e => simp only [bind, Except.bind]
    | ok name =>
        obtain ⟨y, rfl, last⟩ := dumpName_eq_ok named
        obtain ⟨q', short, beside⟩ := sibling_join (d := x) leads.nonempty y.name
        have directory := isDirectory_congr (leads.shortened short) unlinked
          (leads'.shortened short) (agree y (.link linked last (.here ⟨rfl, rfl⟩)))
        simp only [bind, Except.bind, beside, directory]
  · rfl

end Step

/-! ## All the way -/

/-- No step goes to a directory that was passed, so the way ends before all that there is has
been counted. -/
theorem walk_congr (passed : List Dump) {fuel fuel' : Nat} {first : String}
    (leads : d.Leads q k) (leads' : d'.Leads q k)
    (unlinked : ∀ name target, d.tree.get? (k ++ [name]) ≠ some (.link target))
    (agree : ∀ y, WayBack d k x y → Agree d d' k y)
    (distinct : (passed.map Dump.entryName).Nodup)
    (landed : ∀ y ∈ passed, Landed d k y) (landed' : ∀ y ∈ passed, Landed d' k y)
    (enough : d.tree.entries.length < fuel + passed.length)
    (enough' : d'.tree.entries.length < fuel' + passed.length) :
    walk d' fuel' (x.pathIn q) (passed.map Dump.name ++ [first]) =
      walk d fuel (x.pathIn q) (passed.map Dump.name ++ [first]) := by
  induction fuel generalizing fuel' passed x q with
  | zero =>
      have := length_le_entries distinct landed
      omega
  | succ fuel ih =>
      cases fuel' with
      | zero =>
          have := length_le_entries distinct landed'
          omega
      | succ fuel' =>
          rw [walk, walk, predecessor_congr leads unlinked leads' agree]
          cases stepped : predecessor d (x.pathIn q) with
          | error e => simp only [bind, Except.bind]
          | ok back =>
              cases back with
              | none => simp only [bind, Except.bind]
              | some name =>
                  obtain ⟨y, target, rfl, there, linked, named⟩ :=
                    linked_of_predecessor leads unlinked stepped
                  obtain ⟨q', short, beside⟩ := sibling_join (d := x) leads.nonempty y.name
                  have there' : Landed d' k y :=
                    (agree y (.link linked named (.here ⟨rfl, rfl⟩))).place.trans there
                  simp only [bind, Except.bind]
                  split
                  · rfl
                  rename_i fresh
                  have new : y.entryName ∉ passed.map Dump.entryName := by
                    intro mem
                    obtain ⟨z, hz, same⟩ := List.mem_map.1 mem
                    refine fresh (List.contains_iff_mem.2 (List.mem_append_left _ ?_))
                    rw [Dump.name_inj.2 (Dump.entryName_inj.1 same.symm)]
                    exact List.mem_map_of_mem hz
                  rw [beside]
                  exact ih (x := y) (q := q') (y :: passed) (leads.shortened short)
                    (leads'.shortened short) (fun z way => agree z (.link linked named way))
                    (List.nodup_cons.2 ⟨new, distinct⟩)
                    (List.forall_mem_cons.2 ⟨there, landed⟩)
                    (List.forall_mem_cons.2 ⟨there', landed'⟩)
                    (by rw [List.length_cons]; omega) (by rw [List.length_cons]; omega)

theorem reconstruct_congr (leads : d.Leads root k) (leads' : d'.Leads root k)
    (unlinked : ∀ name target, d.tree.get? (k ++ [name]) ≠ some (.link target))
    (agree : ∀ y, WayBack d k x y → Agree d d' k y) :
    reconstruct d' (x.pathIn root) = reconstruct d (x.pathIn root) := by
  unfold reconstruct
  rw [dumpName_pathIn leads.nonempty]
  exact walk_congr [] leads leads' unlinked agree List.nodup_nil nofun nofun
    (Nat.lt_succ_self _) (Nat.lt_succ_self _)

end Lineage

end LiveMigration
