import LiveMigration.Proofs.Disk.Lookup
import LiveMigration.Proofs.Disk.Paths
import Mathlib.Data.List.Nodup

/-!
Directories that a path leads to. A name that is joined to such a path finds what is in the
directory under that name, and a path that does not lead through the content of its own
directory leads there whatever is put into it.
-/

namespace LiveMigration.FileTree

def foundAt (t : FileTree) (l : Location) : Found :=
  match t.get? l with
  | some e => .present l e
  | none => .free l

/-- A path leads to a directory. -/
structure Leads (t : FileTree) (cwd : Location) (p : Path) (l : Location) : Prop where
  nonempty : p.bytes ≠ []
  noZero : 0 ∉ p.bytes
  follow : t.follow true (maxLinks + 1) (if p.isAbsolute then [] else cwd) p.names =
    .ok (.present l .directory)

variable {t t' : FileTree} {cwd l here k : Location} {p q : Path} {name : Bytes} {last : Bool}
  {xs : List Bytes} {n : Nat} {e : Entry}

/-! ## Finding -/

/-- What is found is what is got to, if the path can be gone at all. -/
theorem find_eq_ok_iff {found : Found} : t.find cwd last p = .ok found ↔
    p.bytes ≠ [] ∧ 0 ∉ p.bytes ∧ p.bytes.length ≤ maxPath ∧
      t.follow last (maxLinks + 1) (if p.isAbsolute then [] else cwd) (namesOf p.bytes) =
        .ok found := by
  unfold FileTree.find
  by_cases zero : 0 ∈ p.bytes
  · rw [if_pos (List.contains_iff_mem.2 zero)]
    exact ⟨nofun, fun can => absurd zero can.2.1⟩
  have noZero : ¬ p.bytes.contains 0 = true := by rwa [List.contains_iff_mem]
  rw [if_neg noZero]
  by_cases none : p.bytes = []
  · have empty : p.isEmpty = true := List.isEmpty_iff.2 none
    rw [if_pos empty]
    exact ⟨nofun, fun can => absurd none can.1⟩
  have full : ¬ p.isEmpty = true := fun empty => none (List.isEmpty_iff.1 empty)
  rw [if_neg full]
  by_cases long : maxPath < p.bytes.length
  · rw [if_pos long]
    exact ⟨nofun, fun can => absurd can.2.2.1 (Nat.not_le.2 long)⟩
  rw [if_neg long]
  cases t.follow last (maxLinks + 1) (if p.isAbsolute then [] else cwd) (namesOf p.bytes) with
  | error e => exact ⟨nofun, fun can => nomatch can.2.2.2⟩
  | ok place =>
      refine ⟨fun same => ⟨none, zero, Nat.le_of_not_lt long, ?_⟩, fun can => ?_⟩
      · cases same
        rfl
      · cases can.2.2.2
        rfl

theorem follow_of_find {found : Found} (h : t.find cwd last p = .ok found) :
    t.follow last (maxLinks + 1) (if p.isAbsolute then [] else cwd) (namesOf p.bytes) =
      .ok found :=
  (find_eq_ok_iff.1 h).2.2.2

theorem length_le_of_find {found : Found} (h : t.find cwd last p = .ok found) :
    p.bytes.length ≤ maxPath :=
  (find_eq_ok_iff.1 h).2.2.1

theorem noZero_of_find {found : Found} (h : t.find cwd last p = .ok found) : 0 ∉ p.bytes :=
  (find_eq_ok_iff.1 h).2.1

theorem leads_of_find (found : t.find cwd true p = .ok (.present l .directory)) :
    t.Leads cwd p l := by
  obtain ⟨nonempty, noZero, _, followed⟩ := find_eq_ok_iff.1 found
  obtain ⟨dots, only, names⟩ := Path.namesOf_eq p
  rw [names] at followed
  exact ⟨nonempty, noZero, follow_of_dots only followed⟩

/-! ## Names in a directory -/

theorem advance_single (o : Path.Ordinary name)
    (plain : last = true → ∀ target, t.get? (l ++ [name]) ≠ some (.link target)) :
    advance t last l [name] =
      if maxName < name.length then .failed .nameTooLong
      else .done (t.foundAt (l ++ [name])) := by
  rw [advance, if_neg o.notDot, if_neg o.notDotDot]
  split
  · rfl
  dsimp only [foundAt]
  cases found : t.get? (l ++ [name]) with
  | none => rfl
  | some e =>
      cases e with
      | directory => rfl
      | file => rfl
      | special => rfl
      | link target =>
          have : last = false := by
            rw [Bool.eq_false_iff]
            exact fun follows => plain follows target found
          subst this
          rfl

theorem follow_single (o : Path.Ordinary name)
    (plain : last = true → ∀ target, t.get? (here ++ [name]) ≠ some (.link target)) :
    t.follow last (n + 1) here [name] =
      if maxName < name.length then .error .nameTooLong
      else .ok (t.foundAt (here ++ [name])) := by
  rw [follow, advance_single o plain]
  by_cases long : maxName < name.length
  · rw [if_pos long, if_pos long]
  · rw [if_neg long, if_neg long]

/-- What is found under the last name of a path stands in the directory that the other names
lead to. -/
theorem follow_concat (o : Path.Ordinary name)
    (h : follow t last n here (xs ++ [name]) = .ok (.present k e)) :
    ∃ R e', follow t true n here xs = .ok (.present R .directory) ∧
      t.get? (R ++ [name]) = some e' ∧ (last = false → k = R ++ [name] ∧ e = e') := by
  induction n generalizing here xs with
  | zero => cases h
  | succ n ih =>
      rw [follow] at h
      by_cases there : ∃ R, advance t true here xs = .done (.present R .directory)
      · obtain ⟨R, done⟩ := there
        have last_name : t.follow last (n + 1) R [name] = .ok (.present k e) := by
          rw [follow, ← advance_append done]
          exact h
        rw [follow, done]
        cases found : t.get? (R ++ [name]) with
        | none =>
            rw [follow_single o (by simp [found]), foundAt, found] at last_name
            split at last_name <;> cases last_name
        | some e' =>
            refine ⟨R, e', rfl, found, fun kept => ?_⟩
            rw [follow_single o (fun follows => by simp [kept] at follows), foundAt, found]
              at last_name
            split at last_name <;> cases last_name
            exact ⟨rfl, rfl⟩
      by_cases linked : ∃ directory target rest, advance t true here xs = .link directory target rest
      · obtain ⟨directory, target, rest, turned⟩ := linked
        rw [advance_append_link turned (List.cons_ne_nil _ _)] at h
        dsimp only at h
        rw [← List.append_assoc] at h
        rw [follow, turned]
        exact ih h
      · obtain ⟨e', failed⟩ : ∃ e', advance t last here (xs ++ [name]) = .failed e' :=
          advance_append_stuck (fun R done => there ⟨R, done⟩)
            (fun directory target rest turned => linked ⟨directory, target, rest, turned⟩)
            (List.cons_ne_nil name [])
        rw [failed] at h
        cases h

theorem Leads.find_join (leads : t.Leads cwd p l) (o : Path.Ordinary name) (last : Bool)
    (plain : last = true → ∀ target, t.get? (l ++ [name]) ≠ some (.link target)) :
    t.find cwd last (p.join name) = .ok (t.foundAt (l ++ [name])) ∨
      t.find cwd last (p.join name) = .error (.os .nameTooLong) ∧
        (maxPath < (p.join name).bytes.length ∨ maxName < name.length) := by
  have zero : (p.join name).bytes.contains 0 = false := by
    rw [Bool.eq_false_iff, ne_eq, List.contains_iff_mem]
    exact fun mem => leads.noZero (Path.zero_mem_join leads.nonempty o mem)
  have full : (p.join name).isEmpty = false := by
    rw [Path.isEmpty, Path.bytes_join leads.nonempty o]
    simp
  unfold find
  rw [if_neg (by simp only [zero, Bool.false_eq_true, not_false_iff]),
    if_neg (by simp only [full, Bool.false_eq_true, not_false_iff])]
  split
  · rename_i long
    exact .inr ⟨rfl, .inl long⟩
  obtain ⟨m, same⟩ := follow_append last leads.follow (List.cons_ne_nil name [])
  rw [Path.namesOf_join leads.nonempty o, Path.isAbsolute_join leads.nonempty o, same,
    FileTree.follow, advance_single o plain]
  by_cases long : maxName < name.length
  · rw [if_pos long]
    exact .inr ⟨rfl, .inr long⟩
  · rw [if_neg long]
    exact .inl rfl

/-- A name in what stands in a directory under another name, if that is no link. -/
theorem advance_pair {inner : Bytes} (o : Path.Ordinary name) (o' : Path.Ordinary inner)
    (plain : ∀ target, t.get? (l ++ [name]) ≠ some (.link target)) :
    advance t false l [name, inner] =
      if maxName < name.length then .failed .nameTooLong
      else match t.get? (l ++ [name]) with
        | none => .failed .noSuchEntry
        | some .directory =>
          if maxName < inner.length then .failed .nameTooLong
          else .done (t.foundAt (l ++ [name] ++ [inner]))
        | some _ => .failed .notDirectory := by
  rw [advance, if_neg o.notDot, if_neg o.notDotDot]
  split
  · rfl
  dsimp only
  cases found : t.get? (l ++ [name]) with
  | none => rfl
  | some e =>
      cases e with
      | directory => exact advance_single o' fun follows => absurd follows Bool.false_ne_true
      | file => rfl
      | special => rfl
      | link target => exact absurd found (plain target)

/-- Behind a directory that a path leads to in two trees the same is found in both, if one
gets equally far there without a link. -/
theorem Leads.find_congr {cwd' : Location} {path : Path} {names : List Bytes} {turn : Turn}
    (leads : t.Leads cwd p l) (leads' : t'.Leads cwd' p l)
    (behind : namesOf path.bytes = p.names ++ names) (absolute : path.isAbsolute = p.isAbsolute)
    (some : names ≠ []) (far : t.advance last l names = turn)
    (far' : t'.advance last l names = turn)
    (stays : ∀ directory target rest, turn ≠ .link directory target rest) :
    t'.find cwd' last path = t.find cwd last path := by
  obtain ⟨m, same⟩ := follow_append last leads.follow some
  obtain ⟨m', same'⟩ := follow_append last leads'.follow some
  unfold find
  rw [behind, absolute, same, same', FileTree.follow, FileTree.follow, far, far']
  cases turn with
  | done | failed => rfl
  | link directory target rest => exact absurd rfl (stays directory target rest)

/-- What is found behind such a directory is as far as one gets from there. -/
theorem Leads.done_of_find {path : Path} {names : List Bytes} {found : Found}
    (leads : t.Leads cwd p l) (behind : namesOf path.bytes = p.names ++ names)
    (absolute : path.isAbsolute = p.isAbsolute) (some : names ≠ [])
    (stays : ∀ directory target rest, t.advance last l names ≠ .link directory target rest)
    (h : t.find cwd last path = .ok found) : t.advance last l names = .done found := by
  obtain ⟨m, same⟩ := follow_append last leads.follow some
  have followed := follow_of_find h
  rw [behind, absolute, same, FileTree.follow] at followed
  cases far : t.advance last l names with
  | done =>
      rw [far] at followed
      cases followed
      rfl
  | failed =>
      rw [far] at followed
      cases followed
  | link directory target rest => exact absurd far (stays directory target rest)

/-- Going into a directory of the one that a path leads to. -/
theorem Leads.enter (leads : t.Leads cwd p l) (o : Path.Ordinary name)
    (short : name.length ≤ maxName) (directory : t.get? (l ++ [name]) = some .directory) :
    t.Leads cwd (p.join name) (l ++ [name]) := by
  refine ⟨?_, fun zero => leads.noZero (Path.zero_mem_join leads.nonempty o zero), ?_⟩
  · rw [Path.bytes_join leads.nonempty o]
    simp
  · obtain ⟨m, same⟩ := follow_append true leads.follow (List.cons_ne_nil name [])
    have plain : true = true → ∀ target, t.get? (l ++ [name]) ≠ some (.link target) := by
      intro _ target
      rw [directory]
      nofun
    rw [Path.names_join leads.nonempty o, Path.isAbsolute_join leads.nonempty o, same,
      FileTree.follow, advance_single o plain, if_neg (Nat.not_lt.2 short), foundAt, directory]

theorem Leads.shortened (leads : t.Leads cwd p l) (short : Path.Shortened p q) :
    t.Leads cwd q l := by
  obtain ⟨dots, only, names⟩ := short.names
  refine ⟨short.nonempty, fun zero => leads.noZero (short.bytes 0 zero), ?_⟩
  have reached := leads.follow
  rw [names] at reached
  rw [short.isAbsolute]
  exact follow_of_dots only reached

theorem Leads.find (leads : t.Leads cwd p l) :
    t.find cwd true p = .ok (.present l .directory) ∨
      t.find cwd true p = .error (.os .nameTooLong) ∧ maxPath < p.bytes.length := by
  by_cases long : maxPath < p.bytes.length
  · have zero : ¬ p.bytes.contains 0 = true := by
      rw [List.contains_iff_mem]
      exact leads.noZero
    have full : ¬ p.isEmpty = true := fun empty => leads.nonempty (List.isEmpty_iff.1 empty)
    exact .inr ⟨by rw [FileTree.find, if_neg zero, if_neg full, if_pos long], long⟩
  refine .inl (find_eq_ok_iff.2 ⟨leads.nonempty, leads.noZero, Nat.le_of_not_lt long, ?_⟩)
  obtain ⟨dots, only, names⟩ := Path.namesOf_eq p
  rw [names]
  by_cases none : dots = []
  · rw [none, List.append_nil, leads.follow]
  · obtain ⟨m, same⟩ := follow_append true leads.follow none
    rw [same, FileTree.follow, advance_dots only]

/-- What is found has no name that is too long. -/
theorem Leads.length_name_le {found : Found} (leads : t.Leads cwd p l) (o : Path.Ordinary name)
    (plain : last = true → ∀ target, t.get? (l ++ [name]) ≠ some (.link target))
    (h : t.find cwd last (p.join name) = .ok found) : name.length ≤ maxName := by
  have followed := follow_of_find h
  obtain ⟨m, same⟩ := follow_append last leads.follow (List.cons_ne_nil name [])
  rw [Path.namesOf_join leads.nonempty o, Path.isAbsolute_join leads.nonempty o, same,
    follow_single o plain] at followed
  split at followed
  · cases followed
  · exact Nat.le_of_not_lt ‹_›

/-- A path that is found leads to the same directory in every tree in which it leads there. -/
theorem Leads.find_of_find {cwd' : Location} {found : Found} (leads : t'.Leads cwd' p l)
    (h : t.find cwd last p = .ok found) : t'.find cwd' true p = .ok (.present l .directory) :=
  leads.find.resolve_right fun long => Nat.not_lt.2 (length_le_of_find h) long.2

/-! ## Names beside the last one -/

/-- What is found under a name that was joined to a path stands in the directory that the path
leads to. -/
theorem follow_of_find_join (o : Path.Ordinary name)
    (h : t.find cwd last (p.join name) = .ok (.present k e)) :
    ∃ R e', t.follow true (maxLinks + 1) (if p.isAbsolute then [] else cwd) p.names =
        .ok (.present R .directory) ∧
      t.get? (R ++ [name]) = some e' ∧ (last = false → k = R ++ [name] ∧ e = e') := by
  have followed := follow_of_find h
  rw [Path.namesOf_beside p o, Path.isAbsolute_beside p o] at followed
  exact follow_concat o followed

theorem find_of_find_join (ne : p.bytes ≠ []) (o : Path.Ordinary name)
    (h : t.find cwd last (p.join name) = .ok (.present k e)) :
    ∃ R e', t.find cwd true p = .ok (.present R .directory) ∧
      t.get? (R ++ [name]) = some e' ∧ (last = false → k = R ++ [name] ∧ e = e') := by
  obtain ⟨R, e', followed, there, same⟩ := follow_of_find_join o h
  have length := Path.length_join ne o
  have noZero : 0 ∉ p.bytes := by
    intro zero
    apply noZero_of_find h
    rw [Path.bytes_join ne o, List.mem_append]
    obtain bytes | bytes := Path.bytes_of_stem p <;> rw [bytes] at zero
    · exact .inl zero
    · rw [List.mem_append, List.mem_singleton] at zero
      exact .inl (zero.resolve_right (by decide))
  have leads : t.Leads cwd p R := ⟨ne, noZero, followed⟩
  refine ⟨R, e', leads.find.resolve_right fun long => ?_, there, same⟩
  have short := length_le_of_find h
  obtain bytes | bytes := Path.bytes_of_stem p <;> rw [bytes] at long
  · omega
  · rw [List.length_append, List.length_singleton] at long
    omega

/-- There are no more names in a directory than entries in the tree. -/
theorem length_le_entries {names : List Bytes} (distinct : names.Nodup)
    (there : ∀ name ∈ names, ∃ e, t.get? (l ++ [name]) = some e) :
    names.length ≤ t.entries.length := by
  have apart : (names.map fun name => l ++ [name]).Nodup :=
    List.Nodup.map (fun a b same => by simpa using same) distinct
  have inside : (names.map fun name => l ++ [name]) ⊆ t.entries.map Prod.fst := by
    intro place mem
    obtain ⟨name, hname, rfl⟩ := List.mem_map.1 mem
    obtain ⟨e, found⟩ := there name hname
    exact List.mem_map_of_mem (mem_of_get? found (by simp))
  have := List.Nodup.length_le_of_subset apart inside
  rwa [List.length_map, List.length_map] at this

/-! ## Roots -/

/-- A path leads to a directory whatever stands in that directory. -/
def Roots (t : FileTree) (cwd : Location) (p : Path) (l : Location) : Prop :=
  ∀ t' : FileTree, (∀ k, ¬ (l <+: k ∧ k ≠ l) → t'.get? k = t.get? k) → t'.Leads cwd p l

theorem Roots.leads (roots : t.Roots cwd p l) : t.Leads cwd p l := roots t fun _ _ => rfl

theorem Roots.congr (roots : t.Roots cwd p l)
    (same : ∀ k, ¬ (l <+: k ∧ k ≠ l) → t'.get? k = t.get? k) : t'.Roots cwd p l := by
  intro t'' agrees
  exact roots t'' fun k outer => (agrees k outer).trans (same k outer)

theorem Roots.of_outside (roots : t.Roots cwd p l)
    (same : t'.outside (l ++ [name]) = t.outside (l ++ [name])) : t'.Roots cwd p l := by
  refine roots.congr ?_
  intro k outer
  refine get?_of_outside same ?_
  intro inner
  refine outer ⟨(List.prefix_append l [name]).trans inner, ?_⟩
  rintro rfl
  have := inner.length_le
  rw [List.length_append, List.length_singleton] at this
  omega

theorem Leads.keep (leads : t.Leads cwd p l) (keeps : Keeps t t') : t'.Leads cwd p l :=
  ⟨leads.nonempty, leads.noZero, keeps.follow leads.follow⟩

theorem Leads.extend (leads : t.Leads cwd p l) (x : Extends t t') : t'.Leads cwd p l :=
  leads.keep x.keeps

/-- If a path does not lead to its directory any more, nothing is found behind it. -/
theorem Leads.spare {x : FileTree} {inner : Bytes} {found : Found} (leads : t.Leads cwd p l)
    (spares : Spares t t' x) (o : Path.Ordinary name) (o' : Path.Ordinary inner)
    (h : x.find cwd last ((p.join name).join inner) = .ok found) : t'.Leads cwd p l := by
  refine (spares.follow leads.follow).elim
    (fun same => ⟨leads.nonempty, leads.noZero, same.1⟩) fun lost => ?_
  have ne : (p.join name).bytes ≠ [] := by
    rw [Path.bytes_join leads.nonempty o]
    simp
  have behind : namesOf ((p.join name).join inner).bytes = p.names ++ [name, inner] := by
    rw [Path.namesOf_join ne o', Path.names_join leads.nonempty o, List.append_assoc]
    rfl
  have absolute : ((p.join name).join inner).isAbsolute = p.isAbsolute :=
    (Path.isAbsolute_join ne o').trans (Path.isAbsolute_join leads.nonempty o)
  have followed := follow_of_find h
  rw [behind, absolute, lost last [name, inner] (List.cons_ne_nil _ _)] at followed
  cases followed

/-- The way to an empty directory does not lead through its content. -/
theorem roots_of_empty (found : t.find cwd true p = .ok (.present l .directory))
    (empty : ∀ k, l <+: k → k ≠ l → t.get? k = none) : t.Roots cwd p l := by
  intro t' agrees
  refine (leads_of_find found).extend ?_
  intro k e there
  rw [agrees k, there]
  rintro ⟨inner, ne⟩
  rw [empty k inner ne] at there
  cases there

/-! ## Roots beside a place -/

/-- A path leads to a directory whatever stands there under one name. -/
def RootsBeside (t : FileTree) (cwd : Location) (p : Path) (l : Location) (name : Bytes) : Prop :=
  ∀ t' : FileTree, t'.outside (l ++ [name]) = t.outside (l ++ [name]) → t'.Leads cwd p l

theorem Roots.beside (roots : t.Roots cwd p l) (name : Bytes) : t.RootsBeside cwd p l name :=
  fun _ same => (roots.of_outside same).leads

theorem rootsBeside_of_vacant (found : t.find cwd true p = .ok (.present l .directory))
    (vacant : ∀ k, l ++ [name] <+: k → t.get? k = none) : t.RootsBeside cwd p l name := by
  intro t' same
  refine (leads_of_find found).extend ?_
  intro k e there
  rw [get?_of_outside same, there]
  intro inner
  rw [vacant k inner] at there
  cases there

end LiveMigration.FileTree
