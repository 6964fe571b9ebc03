import LiveMigration.Proofs.Lineage.WayBack

/-!
The names that lead back from a dump directory. A trail goes over the links from one directory to
another one beside it, as long as these are directories of dumps it has not passed. On every
tree a trail ends, since it passes another name of the root with each step: either where there is
no link any more, or where the link is broken in one of five ways. So the search has a result, and
which one it is can be told from the tree alone.
-/

namespace LiveMigration.Lineage

open Bytes (ofText)

def DirectoryAt (d : Disk) (p : Path) : Prop := ∃ l, d.find p = .ok (.present l .directory)

/-- What has the name of the link in a directory. -/
def ParentEntry (d : Disk) (here : Path) (e : Entry) : Prop :=
  ∃ l, d.find here = .ok (.present l .directory) ∧ d.tree.get? (l ++ [linkEntry]) = some e

/-- A number of steps lead from a directory to another one; the names that were passed, latest
first. Of a target only the last name counts. -/
inductive Trail (d : Disk) (dir : Path) : Nat → List String → Path → Prop
  | start {x : Dump} (named : dir.fileName? = some x.entryName) : Trail d dir 0 [x.name] dir
  | back {n : Nat} {names : List String} {here : Path} {target : Bytes} {x : Dump}
      (trail : Trail d dir n names here) (linked : ParentEntry d here (.link target))
      (named : (⟨target⟩ : Path).fileName? = some x.entryName)
      (there : DirectoryAt d (sibling dir x.name)) (new : x.name ∉ names) :
      Trail d dir (n + 1) (x.name :: names) (sibling dir x.name)

/-- How the step back from a directory fails. -/
inductive Breaks (d : Disk) (dir : Path) (names : List String) (here : Path) : LineageError → Prop
  | noLink {e : Entry} (entry : ParentEntry d here e) (other : ∀ target, e ≠ .link target) :
      Breaks d dir names here (.corrupt (here.joinText linkName))
  | noName {target : Bytes} (linked : ParentEntry d here (.link target))
      (unnamed : ∀ text, (⟨target⟩ : Path).fileName? ≠ some (ofText text)) :
      Breaks d dir names here (.corrupt (here.joinText linkName))
  | noDump {target : Bytes} {text : String} {e : Dump.NameError}
      (linked : ParentEntry d here (.link target))
      (named : (⟨target⟩ : Path).fileName? = some (ofText text))
      (malformed : Dump.ofName text = .error e) :
      Breaks d dir names here (.badName (here.joinText linkName) e)
  | missing {target : Bytes} {x : Dump} (linked : ParentEntry d here (.link target))
      (named : (⟨target⟩ : Path).fileName? = some x.entryName)
      (absent : ¬ DirectoryAt d (sibling dir x.name)) :
      Breaks d dir names here (.dangling (here.joinText linkName))
  | repeated {target : Bytes} {x : Dump} (linked : ParentEntry d here (.link target))
      (named : (⟨target⟩ : Path).fileName? = some x.entryName)
      (there : DirectoryAt d (sibling dir x.name)) (old : x.name ∈ names) :
      Breaks d dir names here (.cycle (here.joinText linkName))

/-- Wherever a trail leads, the only thing that can be wrong with an entry of the link's name is
that there is none. -/
def Readable (d : Disk) (dir : Path) : Prop :=
  ∀ n names here f, Trail d dir n names here →
    d.inspectEntry (here.joinText linkName) = .error f → f = .os .noSuchEntry

variable {d : Disk} {dir here : Path} {names : List String} {n : Nat} {x : Dump} {e : Entry}
  {target : Bytes}

/-! ## Where a trail leads -/

theorem isDirectory_iff {p : Path} : d.isDirectory p = true ↔ DirectoryAt d p := by
  unfold Disk.isDirectory Disk.inspect DirectoryAt
  cases d.find p with
  | error f => simp
  | ok found =>
      cases found with
      | free l => simp [Disk.fail]
      | present l e => cases e <;> simp

theorem sibling_eq (named : dir.fileName? = some x.entryName) :
    ∃ root, (∀ name, sibling dir name = root.joinText name) ∧ Path.Parting root ∧
      root.bytes.length ≤ dir.bytes.length := by
  obtain ⟨root, parted, parting, short⟩ := Path.parting_of_fileName? named
  refine ⟨root, fun name => ?_, parting, short⟩
  simp only [sibling, parted]

theorem Trail.named (trail : Trail d dir n names here) :
    ∃ x : Dump, dir.fileName? = some x.entryName := by
  induction trail with
  | start named => exact ⟨_, named⟩
  | back _ _ _ _ _ ih => exact ih

/-- All directories of a trail lie beside each other. -/
theorem Trail.sibling_here (trail : Trail d dir n names here) (name : String) :
    sibling here name = sibling dir name := by
  cases trail with
  | start => rfl
  | @back _ _ _ _ x trail =>
      obtain ⟨y, named⟩ := trail.named
      obtain ⟨root, beside, parting, -⟩ := sibling_eq named
      have parted : (root.joinText x.name).parent? = some root :=
        parting.parent?_join x.ordinary_entryName
      rw [beside, beside, sibling, parted]

theorem Trail.nonempty (trail : Trail d dir n names here) : here.bytes ≠ [] := by
  cases trail with
  | start named =>
      intro none
      rw [Path.fileName?, Path.pieces, none] at named
      cases named
  | @back _ _ _ _ x trail =>
      obtain ⟨y, named⟩ := trail.named
      obtain ⟨root, beside, -, -⟩ := sibling_eq named
      rw [beside]
      exact Path.bytes_beside_ne_nil root x.ordinary_entryName

theorem Trail.directoryAt (trail : Trail d dir n names here) (there : DirectoryAt d dir) :
    DirectoryAt d here := by
  cases trail with
  | start => exact there
  | back _ _ _ there => exact there

theorem Trail.length_eq (trail : Trail d dir n names here) : names.length = n + 1 := by
  induction trail with
  | start => rfl
  | back _ _ _ _ _ ih => rw [List.length_cons, ih]

theorem Trail.nodup (trail : Trail d dir n names here) : names.Nodup := by
  induction trail with
  | start => exact List.nodup_singleton _
  | back _ _ _ _ new ih => exact List.nodup_cons.2 ⟨new, ih⟩

/-- What a trail has passed are dumps, and all but the first one are there. -/
theorem Trail.passed (trail : Trail d dir n names here) :
    ∃ (ds : List Dump) (first : String), names = ds.map Dump.name ++ [first] ∧ ds.length = n ∧
      ∀ y ∈ ds, DirectoryAt d (sibling dir y.name) := by
  induction trail with
  | start => exact ⟨[], _, rfl, rfl, nofun⟩
  | @back _ _ _ _ x _ _ _ there _ ih =>
      obtain ⟨ds, first, rfl, rfl, landed⟩ := ih
      exact ⟨x :: ds, first, rfl, rfl, List.forall_mem_cons.2 ⟨there, landed⟩⟩

/-- Each step goes to another name of the root. -/
theorem Trail.le_entries (trail : Trail d dir n names here) : n ≤ d.tree.entries.length := by
  obtain ⟨x, named⟩ := trail.named
  obtain ⟨root, beside, -, -⟩ := sibling_eq named
  obtain ⟨ds, first, rfl, rfl, landed⟩ := trail.passed
  have distinct : (ds.map Dump.entryName).Nodup := by
    have := (List.nodup_append.1 trail.nodup).1
    rw [show Dump.entryName = ofText ∘ Dump.name from rfl, ← List.map_map]
    exact this.map fun _ _ => Bytes.ofText_injective
  have place (y : Dump) (mem : y ∈ ds) : ∃ R e, d.tree.follow true (FileTree.maxLinks + 1)
      (if root.isAbsolute then [] else d.cwd) root.names = .ok (.present R .directory) ∧
        d.tree.get? (R ++ [y.entryName]) = some e := by
    obtain ⟨l, found⟩ := landed y mem
    rw [beside] at found
    obtain ⟨R, e, followed, there, -⟩ :=
      FileTree.follow_of_find_join y.ordinary_entryName found
    exact ⟨R, e, followed, there⟩
  cases ds with
  | nil => exact Nat.zero_le _
  | cons y ds =>
      obtain ⟨R, -, followed, -⟩ := place y (List.mem_cons_self ..)
      rw [← List.length_map (f := Dump.entryName)]
      refine FileTree.length_le_entries (l := R) distinct fun name mem => ?_
      obtain ⟨z, hz, rfl⟩ := List.mem_map.1 mem
      obtain ⟨R', e, followed', there⟩ := place z hz
      obtain rfl : R = R' := by
        rw [followed] at followed'
        cases followed'
        rfl
      exact ⟨e, there⟩

/-! ## The link of a directory -/

theorem parentEntry_of_inspectEntry (ne : here.bytes ≠ [])
    (h : d.inspectEntry (here.joinText linkName) = .ok e) : ParentEntry d here e := by
  unfold Disk.inspectEntry Disk.findEntry at h
  split at h
  · rename_i found
    cases h
    obtain ⟨R, e', there, inside, same⟩ :=
      FileTree.find_of_find_join ne ordinary_linkEntry found
    obtain ⟨-, rfl⟩ := same rfl
    exact ⟨R, there, inside⟩
  · cases h
  · cases h

theorem inspectEntry_link {l : Location} (found : d.find here = .ok (.present l .directory)) :
    (d.inspectEntry (here.joinText linkName) = match d.tree.get? (l ++ [linkEntry]) with
      | some e => .ok e
      | none => .error (.os .noSuchEntry)) ∨
    d.inspectEntry (here.joinText linkName) = .error (.os .nameTooLong) ∧
      FileTree.maxPath < here.bytes.length + 7 := by
  have leads := FileTree.leads_of_find found
  have name : linkEntry.length = 6 := by decide +kernel
  rw [show here.joinText linkName = here.join linkEntry from rfl, Disk.inspectEntry,
    Disk.findEntry]
  obtain same | ⟨failed, long⟩ := leads.find_join ordinary_linkEntry false nofun
  · rw [same, FileTree.foundAt]
    cases d.tree.get? (l ++ [linkEntry]) with
    | none => exact .inl rfl
    | some e => exact .inl rfl
  · rw [failed]
    refine .inr ⟨rfl, ?_⟩
    obtain long | long := long
    · have := Path.length_join_le here linkEntry
      omega
    · exact absurd long (by rw [name]; decide)

theorem Trail.inspectEntry_eq_ok (readable : Readable d dir) (trail : Trail d dir n names here) :
    d.inspectEntry (here.joinText linkName) = .ok e ↔ ParentEntry d here e := by
  refine ⟨parentEntry_of_inspectEntry trail.nonempty, fun ⟨l, found, inside⟩ => ?_⟩
  obtain same | ⟨long, -⟩ := inspectEntry_link found
  · rw [same, inside]
  · cases readable _ _ _ _ trail long

theorem Trail.inspectEntry_eq_error (readable : Readable d dir)
    (trail : Trail d dir n names here) (none : ∀ e, ¬ ParentEntry d here e) :
    d.inspectEntry (here.joinText linkName) = .error (.os .noSuchEntry) := by
  cases inspected : d.inspectEntry (here.joinText linkName) with
  | ok e => exact absurd ((trail.inspectEntry_eq_ok readable).1 inspected) (none e)
  | error f => rw [readable _ _ _ _ trail inspected]

/-- The link of a directory can be read if the path of the directory is not too long. -/
theorem readable_of_short (there : DirectoryAt d dir)
    (short : dir.bytes.length + 29 ≤ FileTree.maxPath) : Readable d dir := by
  intro n names here f trail failed
  obtain ⟨l, found⟩ := trail.directoryAt there
  have length : here.bytes.length ≤ dir.bytes.length + 22 := by
    cases trail with
    | start => exact Nat.le_add_right ..
    | @back _ _ _ _ x trail =>
        obtain ⟨y, named⟩ := trail.named
        obtain ⟨root, beside, -, shorter⟩ := sibling_eq named
        have joined : (root.joinText x.name).bytes.length ≤ root.bytes.length + 1 + 21 :=
          (Path.length_join_le root x.entryName).trans
            (Nat.add_le_add_left x.length_entryName _)
        rw [beside]
        omega
  obtain same | ⟨-, long⟩ := inspectEntry_link found
  · rw [same] at failed
    split at failed <;> cases failed
    rfl
  · omega

/-! ## The step back -/

theorem dumpName_unnamed {p place : Path} (unnamed : ∀ text, p.fileName? ≠ some (ofText text)) :
    dumpName p place = .error (.corrupt place) := by
  unfold dumpName
  cases spelt : p.fileName?.bind Bytes.text? with
  | none => rfl
  | some text =>
      obtain ⟨bytes, last, same⟩ := Option.bind_eq_some_iff.1 spelt
      rw [Bytes.text?_eq_some_iff.1 same] at last
      exact absurd last (unnamed text)

theorem dumpName_malformed {p place : Path} {text : String} {e : Dump.NameError}
    (named : p.fileName? = some (ofText text)) (malformed : Dump.ofName text = .error e) :
    dumpName p place = .error (.badName place e) := by
  unfold dumpName
  simp only [named, Option.bind_some, Bytes.text?_ofText, malformed]

section Step

variable (readable : Readable d dir) (trail : Trail d dir n names here)
include readable trail

theorem Trail.predecessor_none (none : ∀ e, ¬ ParentEntry d here e) :
    predecessor d here = .ok .none := by
  simp only [predecessor, trail.inspectEntry_eq_error readable none]

theorem Trail.predecessor_link (linked : ParentEntry d here (.link target)) :
    predecessor d here = (do
      let name ← dumpName ⟨target⟩ (here.joinText linkName)
      if d.isDirectory (sibling dir name) then return some name
      else .error (.dangling (here.joinText linkName))) := by
  simp only [predecessor, (trail.inspectEntry_eq_ok readable).2 linked, trail.sibling_here]

theorem Trail.predecessor_some (linked : ParentEntry d here (.link target))
    (named : (⟨target⟩ : Path).fileName? = some x.entryName)
    (there : DirectoryAt d (sibling dir x.name)) : predecessor d here = .ok (some x.name) := by
  rw [trail.predecessor_link readable linked, dumpName_of_fileName? named]
  exact if_pos (isDirectory_iff.2 there)

theorem Trail.walk_end (none : ∀ e, ¬ ParentEntry d here e) (fuel : Nat) :
    walk d (fuel + 1) here names = .ok names := by
  rw [walk, trail.predecessor_none readable none]
  rfl

theorem Trail.walk_back (linked : ParentEntry d here (.link target))
    (named : (⟨target⟩ : Path).fileName? = some x.entryName)
    (there : DirectoryAt d (sibling dir x.name)) (new : x.name ∉ names) (fuel : Nat) :
    walk d (fuel + 1) here names = walk d fuel (sibling dir x.name) (x.name :: names) := by
  rw [walk, trail.predecessor_some readable linked named there, ← trail.sibling_here]
  exact if_neg (mt List.contains_iff_mem.1 new)

theorem Trail.walk_breaks {e : LineageError} (breaks : Breaks d dir names here e) (fuel : Nat) :
    walk d (fuel + 1) here names = .error e := by
  rw [walk]
  cases breaks with
  | @noLink e entry other =>
      have inspected := (trail.inspectEntry_eq_ok readable).2 entry
      cases e with
      | link target => exact absurd rfl (other target)
      | directory | file | special => simp only [predecessor, inspected, bind, Except.bind]
  | noName linked unnamed =>
      rw [trail.predecessor_link readable linked, dumpName_unnamed unnamed]
      rfl
  | noDump linked named malformed =>
      rw [trail.predecessor_link readable linked, dumpName_malformed named malformed]
      rfl
  | missing linked named absent =>
      rw [trail.predecessor_link readable linked, dumpName_of_fileName? named]
      simp only [bind, Except.bind, if_neg (mt isDirectory_iff.1 absent)]
  | repeated linked named there old =>
      rw [trail.predecessor_some readable linked named there]
      exact if_pos (List.contains_iff_mem.2 old)

end Step

/-- At the end of a trail there is no link, or the link is broken, or the trail goes on. -/
theorem Trail.next (trail : Trail d dir n names here) :
    (∀ e, ¬ ParentEntry d here e) ∨ (∃ e, Breaks d dir names here e) ∨
      ∃ x : Dump, Trail d dir (n + 1) (x.name :: names) (sibling dir x.name) := by
  by_cases entry : ∃ e, ParentEntry d here e
  · right
    obtain ⟨e, entry⟩ := entry
    cases e with
    | directory => exact .inl ⟨_, .noLink entry nofun⟩
    | file => exact .inl ⟨_, .noLink entry nofun⟩
    | special => exact .inl ⟨_, .noLink entry nofun⟩
    | link target =>
        by_cases spelt : ∃ text, (⟨target⟩ : Path).fileName? = some (ofText text)
        · obtain ⟨text, named⟩ := spelt
          cases parsed : Dump.ofName text with
          | error e => exact .inl ⟨_, .noDump entry named parsed⟩
          | ok x =>
              have named' : (⟨target⟩ : Path).fileName? = some x.entryName := by
                rw [named, Dump.entryName, Dump.name_of_ofName parsed]
              by_cases there : DirectoryAt d (sibling dir x.name)
              · by_cases old : x.name ∈ names
                · exact .inl ⟨_, .repeated entry named' there old⟩
                · exact .inr ⟨x, .back trail entry named' there old⟩
              · exact .inl ⟨_, .missing entry named' there⟩
        · exact .inl ⟨_, .noName entry fun text named => spelt ⟨text, named⟩⟩
  · exact .inl fun e found => entry ⟨e, found⟩

/-! ## All the way -/

/-- The way goes along the trail. -/
theorem Trail.walk_eq (readable : Readable d dir) (named : dir.fileName? = some x.entryName)
    (trail : Trail d dir n names here) (fuel : Nat) :
    walk d (fuel + n) dir [x.name] = walk d fuel here names := by
  induction trail generalizing fuel with
  | @start y named' =>
      rw [named] at named'
      rw [Bytes.ofText_injective (Option.some.inj named')]
      rfl
  | @back n names here target y trail linked named' there new ih =>
      rw [← trail.walk_back readable linked named' there new fuel, ← ih (fuel + 1)]
      exact congrArg (fun m => walk d m dir [x.name]) (Nat.add_right_comm fuel n 1)

/-- A trail cannot go on for ever. -/
theorem exists_end (named : dir.fileName? = some x.entryName) :
    ∃ n names here, Trail d dir n names here ∧
      ((∀ e, ¬ ParentEntry d here e) ∨ ∃ e, Breaks d dir names here e) := by
  by_contra endless
  have longer (n : Nat) : ∃ names here, Trail d dir n names here := by
    induction n with
    | zero => exact ⟨_, _, .start named⟩
    | succ n ih =>
        obtain ⟨names, here, trail⟩ := ih
        obtain none | breaks | ⟨y, trail'⟩ := trail.next
        · exact absurd ⟨n, names, here, trail, .inl none⟩ endless
        · exact absurd ⟨n, names, here, trail, .inr breaks⟩ endless
        · exact ⟨_, _, trail'⟩
  obtain ⟨names, here, trail⟩ := longer (d.tree.entries.length + 1)
  exact Nat.not_succ_le_self _ trail.le_entries

/-- Whoever may make more steps than there are entries has one left where the trail leads. -/
theorem Trail.walk_from (readable : Readable d dir) (named : dir.fileName? = some x.entryName)
    (trail : Trail d dir n names here) {fuel : Nat} (enough : d.tree.entries.length < fuel) :
    ∃ left, walk d fuel dir [x.name] = walk d (left + 1) here names := by
  obtain ⟨left, rfl⟩ := Nat.exists_eq_add_of_lt (Nat.lt_of_le_of_lt trail.le_entries enough)
  refine ⟨left, (congrArg (fun m => walk d m dir [x.name]) ?_).trans
    (trail.walk_eq readable named (left + 1))⟩
  omega

theorem walk_ok (readable : Readable d dir) (named : dir.fileName? = some x.entryName)
    (trail : Trail d dir n names here) (none : ∀ e, ¬ ParentEntry d here e) {fuel : Nat}
    (enough : d.tree.entries.length < fuel) : walk d fuel dir [x.name] = .ok names := by
  obtain ⟨left, same⟩ := trail.walk_from readable named enough
  exact same.trans (trail.walk_end readable none left)

theorem walk_error {e : LineageError} (readable : Readable d dir)
    (named : dir.fileName? = some x.entryName) (trail : Trail d dir n names here)
    (breaks : Breaks d dir names here e) {fuel : Nat} (enough : d.tree.entries.length < fuel) :
    walk d fuel dir [x.name] = .error e := by
  obtain ⟨left, same⟩ := trail.walk_from readable named enough
  exact same.trans (trail.walk_breaks readable breaks left)

theorem reconstruct_eq (named : dir.fileName? = some x.entryName) :
    reconstruct d dir = walk d (d.tree.entries.length + 1) dir [x.name] := by
  rw [reconstruct, dumpName_of_fileName? named]
  rfl

theorem reconstruct_eq_ok_iff (named : dir.fileName? = some x.entryName)
    (readable : Readable d dir) : reconstruct d dir = .ok names ↔
      ∃ n here, Trail d dir n names here ∧ ∀ e, ¬ ParentEntry d here e := by
  have enough := Nat.lt_succ_self d.tree.entries.length
  rw [reconstruct_eq named]
  refine ⟨fun h => ?_, fun ⟨_, _, trail, ended⟩ => walk_ok readable named trail ended enough⟩
  obtain ⟨n, names', here, trail, none | ⟨e, breaks⟩⟩ := exists_end (d := d) named
  · rw [walk_ok readable named trail none enough] at h
    cases h
    exact ⟨n, here, trail, none⟩
  · rw [walk_error readable named trail breaks enough] at h
    cases h

/-- The search for a chain has a result: the names of a trail, oldest first, if that ends at a
directory without a link, and otherwise the error of the link at which the trail breaks. A trail
of `n` steps has `n + 1` names, all different, and `n` is bounded by the size of the tree; so the
search ends by itself, and the number of steps it is allowed to make is no matter. -/
theorem reconstruct_spec (named : dir.fileName? = some x.entryName) (readable : Readable d dir) :
    (∀ names, reconstruct d dir = .ok names ↔
      ∃ n here, Trail d dir n names here ∧ ∀ e, ¬ ParentEntry d here e) ∧
    (∀ e, reconstruct d dir = .error e ↔
      ∃ n names here, Trail d dir n names here ∧ Breaks d dir names here e) ∧
    (∀ n names here, Trail d dir n names here →
      names.length = n + 1 ∧ names.Nodup ∧ n ≤ d.tree.entries.length ∧
        (DirectoryAt d dir → DirectoryAt d here)) ∧
    ∀ fuel, d.tree.entries.length < fuel → walk d fuel dir [x.name] = reconstruct d dir := by
  refine ⟨fun names => reconstruct_eq_ok_iff named readable, ?_⟩
  have enough := Nat.lt_succ_self d.tree.entries.length
  rw [reconstruct_eq named]
  obtain ⟨n, names, here, trail, ended⟩ := exists_end (d := d) named
  refine ⟨fun e => ⟨fun h => ?_, ?_⟩,
    fun _ _ _ trail => ⟨trail.length_eq, trail.nodup, trail.le_entries, trail.directoryAt⟩,
    fun fuel more => ?_⟩
  · obtain none | ⟨e', breaks⟩ := ended
    · rw [walk_ok readable named trail none enough] at h
      cases h
    · rw [walk_error readable named trail breaks enough] at h
      cases h
      exact ⟨n, names, here, trail, breaks⟩
  · rintro ⟨n, names, here, trail, breaks⟩
    exact walk_error readable named trail breaks enough
  · obtain none | ⟨e, breaks⟩ := ended
    · rw [walk_ok readable named trail none more, walk_ok readable named trail none enough]
    · rw [walk_error readable named trail breaks more,
        walk_error readable named trail breaks enough]

/-- A search that starts at an existing directory ends at one. -/
theorem reconstruct_existing (named : dir.fileName? = some x.entryName)
    (readable : Readable d dir) (there : DirectoryAt d dir) : reconstruct d dir = .ok names ↔
      ∃ n here, Trail d dir n names here ∧ DirectoryAt d here ∧ ∀ e, ¬ ParentEntry d here e := by
  rw [reconstruct_eq_ok_iff named readable]
  refine ⟨fun ⟨n, here, trail, ended⟩ => ⟨n, here, trail, trail.directoryAt there, ended⟩, ?_⟩
  exact fun ⟨n, here, trail, _, ended⟩ => ⟨n, here, trail, ended⟩

/-- A dump directory that is not there passes for one without a link. -/
theorem reconstruct_missing (named : dir.fileName? = some x.entryName)
    (readable : Readable d dir) (absent : ¬ DirectoryAt d dir) :
    reconstruct d dir = .ok [x.name] :=
  (reconstruct_eq_ok_iff named readable).2
    ⟨0, dir, .start named, fun _ ⟨l, found, _⟩ => absent ⟨l, found⟩⟩

/-- A chain of three dumps, the last of which has a link that names a place elsewhere, and two
dumps that build on each other. -/
def sampleTrails : Disk :=
  .ofTree ⟨[([ofText "d1"], .directory), ([ofText "p2"], .directory),
    ([ofText "p2", linkEntry], .link (ofText "../d1")), ([ofText "d3"], .directory),
    ([ofText "d3", linkEntry], .link (ofText "/old/dumps/p2/")), ([ofText "p5"], .directory),
    ([ofText "p5", linkEntry], .link (ofText "../p6")), ([ofText "p6"], .directory),
    ([ofText "p6", linkEntry], .link (ofText "p5"))]⟩ []

theorem reconstruct_spec_sample :
    reconstruct sampleTrails (.ofText "/d3") = .ok ["d1", "p2", "d3"] ∧
    reconstruct sampleTrails (.ofText "/p6") = .error (.cycle (.ofText "/p5/parent")) := by
  constructor
  · have there : DirectoryAt sampleTrails (.ofText "/d3") := ⟨[ofText "d3"], by decide +kernel⟩
    have readable := readable_of_short there (by decide +kernel)
    have trail : Trail sampleTrails (.ofText "/d3") 0 ["d3"] (.ofText "/d3") :=
      .start (x := ⟨.full, 3, 0⟩) rfl
    have trail : Trail sampleTrails (.ofText "/d3") 1 ["p2", "d3"] (.ofText "/p2") :=
      .back (x := ⟨.pre, 2, 0⟩) trail ⟨[ofText "d3"], by decide +kernel, rfl⟩ rfl
        ⟨[ofText "p2"], by decide +kernel⟩ (by decide +kernel)
    have trail : Trail sampleTrails (.ofText "/d3") 2 ["d1", "p2", "d3"] (.ofText "/d1") :=
      .back (x := ⟨.full, 1, 0⟩) trail ⟨[ofText "p2"], by decide +kernel, rfl⟩ rfl
        ⟨[ofText "d1"], by decide +kernel⟩ (by decide +kernel)
    refine ((reconstruct_spec (x := ⟨.full, 3, 0⟩) rfl readable).1 _).2 ⟨2, _, trail, ?_⟩
    rintro e ⟨l, found, inside⟩
    have first : sampleTrails.find (.ofText "/d1") = .ok (.present [ofText "d1"] .directory) := by
      decide +kernel
    rw [first] at found
    cases found
    cases inside
  · have there : DirectoryAt sampleTrails (.ofText "/p6") := ⟨[ofText "p6"], by decide +kernel⟩
    have readable := readable_of_short there (by decide +kernel)
    have trail : Trail sampleTrails (.ofText "/p6") 0 ["p6"] (.ofText "/p6") :=
      .start (x := ⟨.pre, 6, 0⟩) rfl
    have trail : Trail sampleTrails (.ofText "/p6") 1 ["p5", "p6"] (.ofText "/p5") :=
      .back (x := ⟨.pre, 5, 0⟩) trail ⟨[ofText "p6"], by decide +kernel, rfl⟩ rfl
        ⟨[ofText "p5"], by decide +kernel⟩ (by decide +kernel)
    refine ((reconstruct_spec (x := ⟨.pre, 6, 0⟩) rfl readable).2.1 _).2 ⟨1, _, _, trail, ?_⟩
    exact .repeated (x := ⟨.pre, 6, 0⟩) ⟨[ofText "p5"], by decide +kernel, rfl⟩ rfl
      ⟨[ofText "p6"], by decide +kernel⟩ (by decide +kernel)

end LiveMigration.Lineage
