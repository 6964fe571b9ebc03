import LiveMigration.Disk.Basic
import LiveMigration.Proofs.Disk.Places
import LiveMigration.Proofs.Disk.Tree

/-!
What the operations of a disk do in a directory that a path leads to. Each lemma says all
that a successful operation on one of its names can have done.
-/

namespace LiveMigration.Disk

open FileTree (Found)

abbrev Leads (d : Disk) (p : Path) (l : Location) : Prop := d.tree.Leads d.cwd p l

variable {d d' : Disk} {p : Path} {l : Location} {name : Bytes}

theorem foundAt_of_findEntry (leads : d.Leads p l) (o : Path.Ordinary name) {found : Found}
    (h : d.findEntry (p.join name) = .ok found) : found = d.tree.foundAt (l ++ [name]) := by
  unfold findEntry at h
  obtain same | ⟨long, _⟩ := leads.find_join o false nofun
  · rw [same] at h
    exact (Except.ok.inj h).symm
  · rw [long] at h
    cases h

theorem nameTooLong_of_findEntry (leads : d.Leads p l) (o : Path.Ordinary name) {f : Fault}
    (h : d.findEntry (p.join name) = .error f) : f = .os .nameTooLong := by
  unfold findEntry at h
  obtain same | ⟨long, _⟩ := leads.find_join o false nofun
  · rw [same] at h
    cases h
  · rw [long] at h
    exact (Except.error.inj h).symm

theorem foundAt_of_find (leads : d.Leads p l) (o : Path.Ordinary name)
    (plain : ∀ target, d.tree.get? (l ++ [name]) ≠ some (.link target)) {found : Found}
    (h : d.find (p.join name) = .ok found) : found = d.tree.foundAt (l ++ [name]) := by
  unfold find at h
  obtain same | ⟨long, _⟩ := leads.find_join o true fun _ => plain
  · rw [same] at h
    exact (Except.ok.inj h).symm
  · rw [long] at h
    cases h

theorem present_of_foundAt {t : FileTree} {k : Location} {e : Entry}
    (h : Found.present k e = t.foundAt l) : k = l ∧ t.get? l = some e := by
  unfold FileTree.foundAt at h
  split at h
  · rename_i found
    cases h
    exact ⟨rfl, found⟩
  · cases h

theorem free_of_foundAt {t : FileTree} {k : Location} (h : Found.free k = t.foundAt l) :
    k = l ∧ t.get? l = none := by
  unfold FileTree.foundAt at h
  split at h
  · cases h
  · rename_i found
    cases h
    exact ⟨rfl, found⟩

/-! ## Names that can be used -/

/-- A name for an entry of the directory that a path leads to, with which neither the name nor
the path is too long. -/
structure Usable (p : Path) (name : Bytes) : Prop where
  ordinary : Path.Ordinary name
  shortName : name.length ≤ FileTree.maxName
  shortPath : (p.join name).bytes.length ≤ FileTree.maxPath

theorem Usable.findEntry (u : Usable p name) (leads : d.Leads p l) :
    d.findEntry (p.join name) = .ok (d.tree.foundAt (l ++ [name])) := by
  refine (leads.find_join u.ordinary false nofun).resolve_right fun long => ?_
  exact long.2.elim (Nat.not_lt.2 u.shortPath) (Nat.not_lt.2 u.shortName)

theorem Usable.find (u : Usable p name) (leads : d.Leads p l)
    (plain : ∀ target, d.tree.get? (l ++ [name]) ≠ some (.link target)) :
    d.find (p.join name) = .ok (d.tree.foundAt (l ++ [name])) := by
  refine (leads.find_join u.ordinary true fun _ => plain).resolve_right fun long => ?_
  exact long.2.elim (Nat.not_lt.2 u.shortPath) (Nat.not_lt.2 u.shortName)

/-- Beside a name that can be used a shorter one can be used too. -/
theorem Usable.shorter {other : Bytes} (u : Usable p name) (ne : p.bytes ≠ [])
    (o : Path.Ordinary other) (le : other.length ≤ name.length) : Usable p other := by
  refine ⟨o, Nat.le_trans le u.shortName, ?_⟩
  have whole := u.shortPath
  rw [Path.length_join ne u.ordinary] at whole
  rw [Path.length_join ne o]
  omega

theorem usable_of_findEntry (leads : d.Leads p l) (o : Path.Ordinary name) {found : Found}
    (h : d.findEntry (p.join name) = .ok found) : Usable p name := by
  have plain : false = true → ∀ target, d.tree.get? (l ++ [name]) ≠ some (.link target) := nofun
  exact ⟨o, leads.length_name_le o plain h, FileTree.length_le_of_find h⟩

theorem usable_of_find (leads : d.Leads p l) (o : Path.Ordinary name)
    (plain : ∀ target, d.tree.get? (l ++ [name]) ≠ some (.link target)) {found : Found}
    (h : d.find (p.join name) = .ok found) : Usable p name :=
  ⟨o, leads.length_name_le o (fun _ => plain) h, FileTree.length_le_of_find h⟩

theorem foundAt_of_some {t : FileTree} {e : Entry} (h : t.get? l = some e) :
    t.foundAt l = .present l e := by
  rw [FileTree.foundAt, h]

theorem foundAt_of_none {t : FileTree} (h : t.get? l = none) : t.foundAt l = .free l := by
  rw [FileTree.foundAt, h]

/-! ## Making -/

theorem withoutSlash_eq {q : Path} (ne : q.bytes ≠ [])
    (last : q.bytes.getLast? ≠ some Path.slash) : withoutSlash q = q := by
  obtain ⟨front, x, same⟩ := (List.eq_nil_or_concat q.bytes).resolve_left ne
  rw [same, List.concat_eq_append, List.getLast?_concat] at last
  have keep : (x == Path.slash) = false := by
    rw [Bool.eq_false_iff]
    intro slash
    exact last (congrArg some (beq_iff_eq.1 slash))
  unfold withoutSlash
  split
  · rfl
  · refine congrArg Path.mk ?_
    rw [same, List.concat_eq_append, List.reverse_append, List.reverse_singleton,
      List.singleton_append, List.dropWhile_cons_of_neg (by simp [keep]), List.reverse_cons,
      List.reverse_reverse]

theorem withoutSlash_join (ne : p.bytes ≠ []) (o : Path.Ordinary name) :
    withoutSlash (p.join name) = p.join name := by
  refine withoutSlash_eq ?_ (Path.getLast?_join ne o)
  rw [Path.bytes_join ne o]
  simp

theorem createDirectory_cases (leads : d.Leads p l) (o : Path.Ordinary name) :
    d.tree.get? (l ++ [name]) = none ∧
        d.createDirectory (p.join name) = .ok (d.change (.put (l ++ [name]) .directory)) ∨
      (∃ e, d.tree.get? (l ++ [name]) = some e) ∧
        d.createDirectory (p.join name) = fail .alreadyExists ∨
      d.createDirectory (p.join name) = fail .nameTooLong := by
  unfold createDirectory
  rw [withoutSlash_join leads.nonempty o]
  split <;> rename_i h
  · obtain ⟨rfl, none⟩ := free_of_foundAt (foundAt_of_findEntry leads o h)
    exact .inl ⟨none, rfl⟩
  · obtain ⟨rfl, some⟩ := present_of_foundAt (foundAt_of_findEntry leads o h)
    exact .inr (.inl ⟨⟨_, some⟩, rfl⟩)
  · rw [nameTooLong_of_findEntry leads o h]
    exact .inr (.inr rfl)

theorem directory_of_isDirectory (leads : d.Leads p l) (o : Path.Ordinary name)
    (plain : ∀ target, d.tree.get? (l ++ [name]) ≠ some (.link target))
    (h : d.isDirectory (p.join name) = true) : d.tree.get? (l ++ [name]) = some .directory := by
  unfold isDirectory at h
  split at h
  · rename_i inspected
    unfold inspect at inspected
    split at inspected
    · rename_i found
      obtain ⟨_, there⟩ := present_of_foundAt (foundAt_of_find leads o plain found)
      rw [there, Except.ok.inj inspected]
    · cases inspected
    · cases inspected
  · cases h

/-- Only the last directory of a path can be missing if the path to it leads somewhere. -/
theorem createDirectories_join (leads : d.Leads p l) (o : Path.Ordinary name) :
    d.createDirectories (p.join name) = d.ensureDirectory (p.join name) := by
  have full : ¬ (p.join name).isEmpty = true := by
    rw [Path.isEmpty, Path.bytes_join leads.nonempty o]
    simp
  unfold createDirectories createOutward
  rw [if_neg full]
  obtain ⟨_, made⟩ | ⟨_, made⟩ | made := createDirectory_cases leads o <;> rw [made] <;> rfl

/-- What making a directory that may be there already does. -/
theorem createDirectories_cases (leads : d.Leads p l) (o : Path.Ordinary name)
    (plain : ∀ target, d.tree.get? (l ++ [name]) ≠ some (.link target)) {r : Except Fault Unit}
    (h : d.createDirectories (p.join name) = (r, d')) :
    d.tree.get? (l ++ [name]) = none ∧ d' = d.change (.put (l ++ [name]) .directory) ∨
      d' = d ∧ (r = .ok () → d.tree.get? (l ++ [name]) = some .directory) := by
  rw [createDirectories_join leads o] at h
  unfold ensureDirectory at h
  split at h
  · rename_i made
    cases h
    obtain ⟨none, same⟩ | ⟨_, same⟩ | same := createDirectory_cases leads o <;>
      rw [same] at made <;> cases made
    exact .inl ⟨none, rfl⟩
  · obtain ⟨rfl, rfl⟩ := Prod.mk.inj h
    refine .inr ⟨rfl, fun ok => directory_of_isDirectory leads o plain ?_⟩
    split at ok
    · assumption
    · cases ok

/-- A directory that could be made has a name that can be used. -/
theorem usable_of_createDirectories (leads : d.Leads p l) (o : Path.Ordinary name)
    (plain : ∀ target, d.tree.get? (l ++ [name]) ≠ some (.link target))
    (h : d.createDirectories (p.join name) = (.ok (), d')) : Usable p name := by
  obtain found | ⟨long, _⟩ := leads.find_join o true fun _ => plain
  · exact usable_of_find leads o plain found
  cases entry : d.findEntry (p.join name) with
  | ok found => exact usable_of_findEntry leads o entry
  | error f =>
      have failed : d.createDirectory (p.join name) = .error f := by
        unfold createDirectory
        rw [withoutSlash_join leads.nonempty o, entry]
      have notThere : d.isDirectory (p.join name) = false := by
        rw [isDirectory, inspect, find, long]
      rw [createDirectories_join leads o, ensureDirectory, failed, notThere] at h
      cases h

/-- Slashes at the end of a path are left out, unless there is nothing else. -/
theorem withoutSlash_cases (q : Path) : withoutSlash q = q ∨
    ((withoutSlash q).bytes ≠ [] ∧ (withoutSlash q).bytes.getLast? ≠ some Path.slash ∧
      ∃ n, q.bytes = (withoutSlash q).bytes ++ List.replicate n Path.slash) := by
  unfold withoutSlash
  split
  · exact .inl rfl
  rename_i other
  have whole : q.bytes.rdropWhile (· == Path.slash) ++ q.bytes.rtakeWhile (· == Path.slash) =
      q.bytes := List.rdropWhile_append_rtakeWhile
  have some : q.bytes.rdropWhile (· == Path.slash) ≠ [] := fun none =>
    other (List.all_eq_true.2 (List.rdropWhile_eq_nil_iff.1 none))
  have only : q.bytes.rtakeWhile (· == Path.slash) =
      List.replicate (q.bytes.rtakeWhile (· == Path.slash)).length Path.slash :=
    List.eq_replicate_iff.2 ⟨rfl, fun b mem =>
      beq_iff_eq.1 (List.mem_rtakeWhile_imp (p := (· == Path.slash)) mem)⟩
  refine .inr ⟨some, fun last => ?_, _, only ▸ whole.symm⟩
  have kept := List.rdropWhile_last_not (fun b => b == Path.slash) q.bytes some
  have same : (q.bytes.rdropWhile (· == Path.slash)).getLast some = Path.slash :=
    Option.some.inj ((List.getLast?_eq_getLast_of_ne_nil some).symm.trans last)
  exact kept (beq_iff_eq.2 same)

/-- Where a path leads to a directory, none can be made. -/
theorem createDirectory_of_find (found : d.find p = .ok (.present l .directory)) :
    d.createDirectory p = fail .alreadyExists := by
  have leads := FileTree.leads_of_find found
  have short := FileTree.length_le_of_find found
  obtain ⟨k, e, entry⟩ : ∃ k e, d.findEntry (withoutSlash p) = .ok (.present k e) := by
    obtain same | ⟨some, last, n, bytes⟩ := withoutSlash_cases p
    · rw [same]
      obtain ⟨k, e, entry⟩ := FileTree.follow_entry (FileTree.follow_of_find found)
      exact ⟨k, e, FileTree.find_eq_ok_iff.2 ⟨leads.nonempty, leads.noZero, short, entry⟩⟩
    · obtain ⟨k, e, entry⟩ := FileTree.follow_entry leads.follow
      have names : FileTree.namesOf (withoutSlash p).bytes = p.names := by
        rw [FileTree.namesOf, if_neg last, List.append_nil]
        refine (Path.names_slashes (withoutSlash p).bytes n).symm.trans ?_
        rw [← bytes]
      have absolute : (withoutSlash p).isAbsolute = p.isAbsolute := by
        rw [Path.isAbsolute, Path.isAbsolute, bytes, List.head?_append_of_ne_nil _ some]
      refine ⟨k, e, FileTree.find_eq_ok_iff.2 ⟨some, fun zero => leads.noZero ?_, ?_, ?_⟩⟩
      · rw [bytes]
        exact List.mem_append_left _ zero
      · rw [bytes, List.length_append] at short
        exact Nat.le_of_add_right_le short
      · rw [names, absolute]
        exact entry
  unfold createDirectory
  rw [entry]

/-- A directory that is there is left as it is. -/
theorem createDirectories_of_find (found : d.find p = .ok (.present l .directory)) :
    d.createDirectories p = (.ok (), d) := by
  have full : ¬ p.isEmpty = true := fun empty =>
    (FileTree.leads_of_find found).nonempty (List.isEmpty_iff.1 empty)
  have there : d.isDirectory p = true := by rw [isDirectory, inspect, found]
  unfold createDirectories createOutward
  rw [if_neg full, createDirectory_of_find found]
  unfold ensureDirectory
  rw [createDirectory_of_find found]
  exact congrArg (·, d) (if_pos there)

theorem createFile_cases (leads : d.Leads p l) (o : Path.Ordinary name)
    (plain : ∀ target, d.tree.get? (l ++ [name]) ≠ some (.link target)) {k : Location}
    (h : d.createFile (p.join name) = .ok (k, d')) :
    k = l ++ [name] ∧ d' = d.change (.put (l ++ [name]) (.file [])) := by
  unfold createFile at h
  split at h
  · rename_i found
    cases h
    obtain ⟨rfl, _⟩ := free_of_foundAt (foundAt_of_find leads o plain found)
    exact ⟨rfl, rfl⟩
  · rename_i found
    cases h
    obtain ⟨rfl, _⟩ := present_of_foundAt (foundAt_of_find leads o plain found)
    exact ⟨rfl, rfl⟩
  · cases h
  · cases h
  · cases h

/-- A file is made in a free place or in the place of a file. -/
theorem replaced_of_createFile (leads : d.Leads p l) (o : Path.Ordinary name)
    (plain : ∀ target, d.tree.get? (l ++ [name]) ≠ some (.link target)) {k : Location} {e : Entry}
    (h : d.createFile (p.join name) = .ok (k, d')) (there : d.tree.get? (l ++ [name]) = some e) :
    ∃ content, e = .file content := by
  unfold createFile at h
  split at h
  · rename_i found
    rw [(free_of_foundAt (foundAt_of_find leads o plain found)).2] at there
    cases there
  · rename_i content found
    rw [(present_of_foundAt (foundAt_of_find leads o plain found)).2] at there
    exact ⟨content, (Option.some.inj there).symm⟩
  · cases h
  · cases h
  · cases h

/-- A file can be made in a free place and in the place of a file. -/
theorem Usable.createFile (u : Usable p name) (leads : d.Leads p l)
    (file : ∀ e, d.tree.get? (l ++ [name]) = some e → ∃ content, e = .file content) :
    d.createFile (p.join name) =
      .ok (l ++ [name], d.change (.put (l ++ [name]) (.file []))) := by
  have plain (target : Bytes) : d.tree.get? (l ++ [name]) ≠ some (.link target) := by
    intro link
    obtain ⟨_, same⟩ := file _ link
    cases same
  unfold Disk.createFile
  rw [u.find leads plain]
  cases there : d.tree.get? (l ++ [name]) with
  | none => rw [foundAt_of_none there]
  | some e =>
      obtain ⟨content, rfl⟩ := file e there
      rw [foundAt_of_some there]

theorem usable_of_createFile (leads : d.Leads p l) (o : Path.Ordinary name)
    (plain : ∀ target, d.tree.get? (l ++ [name]) ≠ some (.link target)) {k : Location}
    (h : d.createFile (p.join name) = .ok (k, d')) : Usable p name := by
  unfold createFile at h
  split at h
  · exact usable_of_find leads o plain ‹_›
  · exact usable_of_find leads o plain ‹_›
  · cases h
  · cases h
  · cases h

theorem createLink_cases (leads : d.Leads p l) (o : Path.Ordinary name) {target : Bytes}
    (h : d.createLink target (p.join name) = .ok d') :
    d.tree.get? (l ++ [name]) = none ∧ d' = d.change (.put (l ++ [name]) (.link target)) := by
  unfold createLink at h
  split at h
  · cases h
  split at h
  · cases h
  split at h
  · cases h
  split at h
  · rename_i found
    cases h
    obtain ⟨rfl, none⟩ := free_of_foundAt (foundAt_of_findEntry leads o found)
    exact ⟨none, rfl⟩
  · cases h
  · cases h

/-- What can be the target of a link. -/
structure Linkable (target : Bytes) : Prop where
  noZero : 0 ∉ target
  nonempty : target ≠ []
  short : target.length ≤ FileTree.maxPath

theorem linkable_of_createLink {target : Bytes} {path : Path}
    (h : d.createLink target path = .ok d') : Linkable target := by
  unfold createLink at h
  split at h
  · cases h
  rename_i zero
  split at h
  · cases h
  rename_i some
  split at h
  · cases h
  rename_i short
  refine ⟨?_, fun none => some (List.isEmpty_iff.2 none), Nat.le_of_not_lt short⟩
  rwa [List.contains_iff_mem] at zero

theorem Usable.createLink {target : Bytes} (u : Usable p name) (leads : d.Leads p l)
    (linkable : Linkable target) (free : d.tree.get? (l ++ [name]) = none) :
    d.createLink target (p.join name) = .ok (d.change (.put (l ++ [name]) (.link target))) := by
  have zero : ¬ target.contains 0 = true := by
    rw [List.contains_iff_mem]
    exact linkable.noZero
  have some : ¬ target.isEmpty = true := fun empty => linkable.nonempty (List.isEmpty_iff.1 empty)
  unfold Disk.createLink
  rw [if_neg zero, if_neg some, if_neg (Nat.not_lt.2 linkable.short), u.findEntry leads,
    foundAt_of_none free]

theorem free_of_createLink {target : Bytes} {path : Path} (h : d.createLink target path = .ok d') :
    ∃ l, d.findEntry path = .ok (.free l) := by
  unfold createLink at h
  split at h
  · cases h
  split at h
  · cases h
  split at h
  · cases h
  split at h
  · exact ⟨_, ‹_›⟩
  · cases h
  · cases h

/-! ## Removing -/

theorem removeFile_cases (leads : d.Leads p l) (o : Path.Ordinary name)
    (h : d.removeFile (p.join name) = .ok d') : d' = d.change (.erase (l ++ [name])) := by
  unfold removeFile at h
  split at h
  · cases h
  · rename_i found
    cases h
    obtain ⟨rfl, _⟩ := present_of_foundAt (foundAt_of_findEntry leads o found)
    rfl
  · cases h
  · cases h

theorem Usable.removeFile {e : Entry} (u : Usable p name) (leads : d.Leads p l)
    (there : d.tree.get? (l ++ [name]) = some e) (other : e ≠ .directory) :
    d.removeFile (p.join name) = .ok (d.change (.erase (l ++ [name]))) := by
  unfold Disk.removeFile
  rw [u.findEntry leads, foundAt_of_some there]
  cases e with
  | directory => exact absurd rfl other
  | file | link | special => rfl

/-- A file can be moved to a free place, and to one where no directory is. -/
theorem Usable.renameFile {other content : Bytes} (u : Usable p name) (leads : d.Leads p l)
    (u' : Usable p other) (ne : name ≠ other)
    (there : d.tree.get? (l ++ [name]) = some (.file content))
    (noDirectory : d.tree.get? (l ++ [other]) ≠ some .directory) :
    d.renameFile (p.join name) (p.join other) =
      .ok ((d.change (.put (l ++ [other]) (.file content))).change (.erase (l ++ [name]))) := by
  have apart : l ++ [name] ≠ l ++ [other] := by simpa using ne
  unfold Disk.renameFile
  rw [u.findEntry leads, u'.findEntry leads, foundAt_of_some there]
  cases target : d.tree.get? (l ++ [other]) with
  | none =>
      rw [foundAt_of_none target]
      exact if_neg apart
  | some e =>
      rw [foundAt_of_some target]
      cases e with
      | directory => exact absurd target noDirectory
      | file | link | special => exact if_neg apart

theorem renameFile_cases (leads : d.Leads p l) {other : Bytes} (o : Path.Ordinary name)
    (o' : Path.Ordinary other) (h : d.renameFile (p.join name) (p.join other) = .ok d') :
    ∃ e, d.tree.get? (l ++ [name]) = some e ∧
      (name = other ∧ d' = d ∨
        d' = (d.change (.put (l ++ [other]) e)).change (.erase (l ++ [name]))) := by
  have moved {k k' : Location} {e : Entry}
      (first : d.findEntry (p.join name) = .ok (.present k e)) (second : k' = l ++ [other])
      (h : (if k = k' then Except.ok d else .ok ((d.change (.put k' e)).change (.erase k))) =
        (.ok d' : Except Fault Disk)) :
      ∃ e, d.tree.get? (l ++ [name]) = some e ∧
        (name = other ∧ d' = d ∨
          d' = (d.change (.put (l ++ [other]) e)).change (.erase (l ++ [name]))) := by
    obtain ⟨rfl, some⟩ := present_of_foundAt (foundAt_of_findEntry leads o first)
    subst second
    refine ⟨e, some, ?_⟩
    split at h
    · rename_i same
      exact .inl ⟨by simpa using same, (Except.ok.inj h).symm⟩
    · exact .inr (Except.ok.inj h).symm
  unfold renameFile at h
  split at h
  · cases h
  · cases h
  · rename_i first second
    exact moved first (present_of_foundAt (foundAt_of_findEntry leads o' second)).1 h
  · rename_i first second
    exact moved first (free_of_foundAt (foundAt_of_findEntry leads o' second)).1 h
  · cases h
  · cases h
  · cases h

theorem replaced_of_renameFile (leads : d.Leads p l) {other : Bytes} (o : Path.Ordinary other)
    {source : Path} (h : d.renameFile source (p.join other) = .ok d') :
    d.tree.get? (l ++ [other]) ≠ some .directory := by
  intro there
  have onto {found : Found} (second : d.findEntry (p.join other) = .ok found) :
      found = .present (l ++ [other]) .directory := by
    rw [foundAt_of_findEntry leads o second, FileTree.foundAt, there]
  unfold renameFile at h
  split at h
  · cases h
  · cases h
  · rename_i noDirectory _ second
    cases onto second
    exact noDirectory rfl
  · rename_i second
    cases onto second
  · cases h
  · cases h
  · cases h

/-- Removing something leaves alone what is not within it. -/
theorem removeAll_cases (leads : d.Leads p l) (o : Path.Ordinary name)
    (h : d.removeAll (p.join name) = .ok d') :
    d'.cwd = d.cwd ∧ d'.tree.outside (l ++ [name]) = d.tree.outside (l ++ [name]) := by
  have swept (k : Location) (ps : List (Location × Entry)) (d : Disk)
      (inside : ∀ q ∈ ps, k <+: q.1) :
      (ps.foldl (fun d q => d.change (.erase q.1)) d).cwd = d.cwd ∧
        (ps.foldl (fun d q => d.change (.erase q.1)) d).tree.outside k = d.tree.outside k := by
    induction ps generalizing d with
    | nil => exact ⟨rfl, rfl⟩
    | cons q ps ih =>
        obtain ⟨cwd, same⟩ := ih (d.change (.erase q.1)) fun q hq =>
          inside q (List.mem_cons_of_mem _ hq)
        refine ⟨cwd, same.trans ?_⟩
        exact FileTree.outside_erase (inside q (List.mem_cons_self ..))
  unfold removeAll at h
  split at h
  · rename_i k found
    obtain ⟨rfl, _⟩ := present_of_foundAt (foundAt_of_findEntry leads o found)
    cases h
    obtain ⟨cwd, same⟩ := swept (l ++ [name]) (d.tree.below (l ++ [name])).reverse d fun q mem =>
      (FileTree.mem_below.1 (List.mem_reverse.1 mem)).2.1
    exact ⟨cwd, (FileTree.outside_erase List.prefix_rfl).trans same⟩
  · rename_i found
    obtain ⟨rfl, _⟩ := present_of_foundAt (foundAt_of_findEntry leads o found)
    cases h
    exact ⟨rfl, FileTree.outside_erase List.prefix_rfl⟩
  · cases h
  · cases h
  · cases h

theorem get?_sweep {ps : List (Location × Entry)} (named : ∀ q ∈ ps, q.1 ≠ []) (d : Disk)
    (k : Location) : (ps.foldl (fun d q => d.change (.erase q.1)) d).tree.get? k =
      if k ∈ ps.map Prod.fst then none else d.tree.get? k := by
  induction ps generalizing d with
  | nil => rfl
  | cons q ps ih =>
      rw [List.foldl_cons, ih fun q' hq => named q' (List.mem_cons_of_mem _ hq)]
      have erased : (d.change (.erase q.1)).tree.get? k = if k = q.1 then none else d.tree.get? k :=
        FileTree.get?_erase _ _ _ (named q (List.mem_cons_self ..))
      rw [erased, List.map_cons]
      by_cases here : k = q.1
      · simp [here]
      · rw [if_neg here]
        simp only [List.mem_cons, here, false_or]

/-- Nothing is left of a directory that is removed. -/
theorem removeAll_directory (leads : d.Leads p l) (o : Path.Ordinary name)
    (h : d.removeAll (p.join name) = .ok d') (there : d.tree.get? (l ++ [name]) = some .directory)
    (rest : Location) : d'.tree.get? (l ++ [name] ++ rest) = none := by
  unfold removeAll at h
  split at h
  · rename_i k found
    obtain ⟨rfl, _⟩ := present_of_foundAt (foundAt_of_findEntry leads o found)
    cases h
    let swept := (d.tree.below (l ++ [name])).reverse.foldl (fun d q => d.change (.erase q.1)) d
    have last : (swept.change (.erase (l ++ [name]))).tree.get? (l ++ [name] ++ rest) =
        if l ++ [name] ++ rest = l ++ [name] then none
        else swept.tree.get? (l ++ [name] ++ rest) := FileTree.get?_erase _ _ _ (by simp)
    refine last.trans ?_
    split
    · rfl
    rename_i inner
    have named : ∀ q ∈ (d.tree.below (l ++ [name])).reverse, q.1 ≠ [] := by
      rintro ⟨k, e⟩ mem rfl
      have inside := (FileTree.mem_below.1 (List.mem_reverse.1 mem)).2.1
      simp at inside
    rw [get?_sweep named]
    split
    · rfl
    rename_i kept
    cases found : d.tree.get? (l ++ [name] ++ rest) with
    | none => rfl
    | some e =>
        have mem : (l ++ [name] ++ rest, e) ∈ d.tree.below (l ++ [name]) :=
          FileTree.mem_below.2 ⟨FileTree.mem_of_get? found (by simp), List.prefix_append .., inner⟩
        exact absurd (List.mem_map_of_mem (List.mem_reverse.2 mem)) kept
  · rename_i found
    obtain ⟨rfl, link⟩ := present_of_foundAt (foundAt_of_findEntry leads o found)
    rw [there] at link
    cases link
  · cases h
  · cases h
  · cases h

theorem list_cases (leads : d.Leads p l) {entries : List (Bytes × Entry)}
    (h : d.list p = .ok entries) : entries = d.tree.children l := by
  unfold list find at h
  obtain found | ⟨long, _⟩ := leads.find
  · rw [found] at h
    exact (Except.ok.inj h).symm
  · rw [long] at h
    cases h

end LiveMigration.Disk
