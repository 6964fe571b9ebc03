import LiveMigration.Proofs.Lineage.Scan
import LiveMigration.Proofs.Lineage.WayBack
import LiveMigration.Proofs.Replica.Ledger
import LiveMigration.Proofs.Transfer.Delivery

/-!
Recovery from a replica. A replica has only dumps that are in the ledger of their node, each
of them with a link to its predecessor, which is there as well. So the way back from any of
them leads through its chain to the first dump, which has no link.
-/

namespace LiveMigration

open Lineage Transfer

/-- A dump root that has dumps of a ledger and nothing else. -/
structure Replica (plans : List Plan) (d : Disk) (root : Path) (k : Location) : Prop where
  roots : d.tree.Roots d.cwd root k
  landed : ∀ name e, d.tree.get? (k ++ [name]) = some e → e = .directory ∧
    ∃ p ∈ plans, p.dump.entryName = name ∧
      d.tree.get? (k ++ [name] ++ [linkEntry]) = linkTo p.base ∧ ∀ b ∈ p.base, Landed d k b
  bare : ∀ name, d.tree.get? (k ++ [name]) = none →
    d.tree.get? (k ++ [name] ++ [linkEntry]) = none
  plain : ∀ name entry target, d.tree.get? (k ++ [name] ++ [entry]) = some (.link target) →
    entry = linkEntry

namespace Replica

variable {plans plans' : List Plan} {d d' : Disk} {root q : Path} {k : Location} {x : Dump}

theorem of_empty (found : d.find root = .ok (.present k .directory))
    (empty : ∀ l, k <+: l → l ≠ k → d.tree.get? l = none) : Replica plans d root k := by
  have below (name : Bytes) : d.tree.get? (k ++ [name]) = none :=
    empty _ (List.prefix_append ..) (Within.self_ne k name).symm
  have deeper (name entry : Bytes) : d.tree.get? (k ++ [name] ++ [entry]) = none := by
    refine empty _ ?_ ?_
    · rw [List.append_assoc]
      exact List.prefix_append ..
    · rw [List.append_assoc]
      simp
  refine ⟨FileTree.roots_of_empty found empty, ?_, fun name _ => deeper name linkEntry, ?_⟩
  · intro name e found
    rw [below] at found
    cases found
  · intro name entry target found
    rw [deeper] at found
    cases found

theorem mono (r : Replica plans d root k) (grown : plans ⊆ plans') :
    Replica plans' d root k := by
  refine ⟨r.roots, ?_, r.bare, r.plain⟩
  intro name e found
  obtain ⟨directory, p, mem, rest⟩ := r.landed name e found
  exact ⟨directory, p, grown mem, rest⟩

/-- What a dump that is there tells of itself. -/
theorem told (r : Replica plans d root k) (ledger : Ledger plans) {p : Plan} (mem : p ∈ plans)
    (landed : Landed d k p.dump) :
    d.tree.get? (k ++ [p.dump.entryName] ++ [linkEntry]) = linkTo p.base ∧
      ∀ b ∈ p.base, Landed d k b := by
  obtain ⟨_, p', mem', same, told⟩ := r.landed _ _ landed
  rw [ledger.eq_of_entryName mem' mem same] at told
  exact told

theorem within (r : Replica plans d root k) (x : Dump) :
    Within d d (k ++ [x.entryName]) (d.tree.get? (k ++ [x.entryName]))
      (d.tree.get? (k ++ [x.entryName] ++ [linkEntry])) :=
  ⟨rfl, rfl, rfl, rfl, r.plain x.entryName⟩

/-- What was there is there when a dump has arrived. -/
theorem landed_of_within {b : Dump} {link : Option Entry}
    (w : Within d d' (k ++ [x.entryName]) (some .directory) link) (landed : Landed d k b) :
    Landed d' k b := by
  by_cases same : b.entryName = x.entryName
  · rw [Landed, same]
    exact w.place
  · have away := FileTree.get?_of_outside w.outside (FileTree.apart_of_ne (k := k) same [])
    rw [List.append_nil] at away
    exact away.trans landed

/-- A dump arrives whose predecessor is there. -/
theorem lands (r : Replica plans d root k) (ledger : Ledger plans) {p : Plan} (mem : p ∈ plans)
    (before : ∀ b ∈ p.base, Landed d k b)
    (w : Within d d' (k ++ [p.dump.entryName]) (some .directory)
      (if p.base.isSome then linkTo p.base
        else d.tree.get? (k ++ [p.dump.entryName] ++ [linkEntry]))) :
    Replica plans d' root k := by
  have away {name : Bytes} (ne : name ≠ p.dump.entryName) (rest : Location) :
      d'.tree.get? (k ++ [name] ++ rest) = d.tree.get? (k ++ [name] ++ rest) :=
    FileTree.get?_of_outside w.outside (FileTree.apart_of_ne ne rest)
  have still {b : Dump} (landed : Landed d k b) : Landed d' k b := landed_of_within w landed
  refine ⟨?_, ?_, ?_, ?_⟩
  · rw [w.cwd]
    exact r.roots.of_outside w.outside
  · intro name e found
    by_cases same : name = p.dump.entryName
    · subst same
      refine ⟨(Option.some.inj (w.place.symm.trans found)).symm, p, mem, rfl, ?_,
        fun b hb => still (before b hb)⟩
      rw [w.link]
      cases hb : p.base with
      | some b => rfl
      | none =>
          rw [if_neg (by simp)]
          cases hp : d.tree.get? (k ++ [p.dump.entryName]) with
          | none => exact r.bare _ hp
          | some e =>
              obtain ⟨rfl, _⟩ := r.landed _ e hp
              rw [(r.told ledger mem hp).1, hb]
    · have found := ((List.append_nil _) ▸ away same []).symm.trans found
      obtain ⟨directory, p', mem', named, link, bases⟩ := r.landed name e found
      exact ⟨directory, p', mem', named, (away same _).trans link, fun b hb => still (bases b hb)⟩
  · intro name none
    by_cases same : name = p.dump.entryName
    · subst same
      rw [w.place] at none
      cases none
    · rw [away same]
      exact r.bare name (((List.append_nil _) ▸ away same []).symm.trans none)
  · intro name entry target found
    by_cases same : name = p.dump.entryName
    · subst same
      exact w.plain entry target found
    · rw [away same] at found
      exact r.plain name entry target found

/-! ## The way back -/

/-- The dump that is recovered from is a full one of the ledger. -/
theorem recovered (r : Replica plans d root k) (h : Lineage.recover d root = .ok x) :
    x.isFull = true ∧ Landed d k x ∧ ∃ p ∈ plans, p.dump.entryName = x.entryName := by
  obtain ⟨entries, listed, offers, -⟩ := offers_of_recover h
  obtain rfl := Disk.list_cases r.roots.leads listed
  obtain ⟨e', got⟩ := FileTree.exists_of_mem (FileTree.mem_children.1 offers.entry)
  obtain ⟨rfl, p, planned, named, _⟩ := r.landed _ e' got
  exact ⟨offers.full, got, p, planned, named⟩

variable {ds front : List Dump}

/-- The predecessors of a dump that is there are there. -/
theorem landed_all (r : Replica plans d root k) (ledger : Ledger plans)
    (traced : Traced plans (front ++ [x])) (landed : Landed d k x) :
    ∀ y ∈ front ++ [x], Landed d k y := by
  induction front using List.reverseRecOn generalizing x with
  | nil =>
      intro y mem
      rw [List.mem_singleton.1 mem]
      exact landed
  | append_singleton front y ih =>
      have bases := (r.told ledger traced.last landed).2
      have earlier := ih traced.front (bases y (by simp))
      intro z mem
      rcases List.mem_append.1 mem with mem | mem
      · exact earlier z mem
      · rw [List.mem_singleton.1 mem]
        exact landed

/-- There are no more dumps in a chain than entries on the disk. -/
theorem length_le_entries (ascending : ds.Pairwise fun a b => a.sequence < b.sequence)
    (landed : ∀ y ∈ ds, Landed d k y) : ds.length ≤ d.tree.entries.length := by
  refine Lineage.length_le_entries ?_ landed
  rw [List.Nodup, List.pairwise_map]
  refine ascending.imp fun {a b} lt same => ?_
  rw [(Dump.entryName_inj.1 same).2] at lt
  exact UInt64.lt_irrefl _ lt

/-- A path to the dump root that leaves room for the link of a dump with a name so long. -/
structure Roomy (d : Disk) (q : Path) (k : Location) (size : Nat) : Prop where
  leads : d.Leads q k
  room : q.stem.length + 1 + size + 1 + linkEntry.length ≤ FileTree.maxPath

theorem Roomy.shortened {size : Nat} (roomy : Roomy d root k size)
    (short : Path.Shortened root q) : Roomy d q k size := by
  refine ⟨roomy.leads.shortened short, ?_⟩
  have := short.stem
  have := roomy.room
  omega

theorem Roomy.findEntry {size : Nat} (roomy : Roomy d q k size) (small : x.entryName.length ≤ size)
    (landed : Landed d k x) : d.findEntry ((x.pathIn q).joinText linkName) =
      .ok (d.tree.foundAt (k ++ [x.entryName] ++ [linkEntry])) := by
  have inside : d.Leads (x.pathIn q) (k ++ [x.entryName]) :=
    roomy.leads.enter x.ordinary_entryName (Nat.le_trans x.length_entryName (by decide)) landed
  obtain same | ⟨_, long⟩ := inside.find_join ordinary_linkEntry false nofun
  · exact same
  · have whole : ((x.pathIn q).join linkEntry).bytes.length =
        q.stem.length + 1 + x.entryName.length + 1 + linkEntry.length := by
      have first : (x.pathIn q).bytes.length = q.stem.length + 1 + x.entryName.length :=
        Path.length_join roomy.leads.nonempty x.ordinary_entryName
      have stem : (x.pathIn q).stem = (x.pathIn q).bytes :=
        Path.stem_join roomy.leads.nonempty x.ordinary_entryName
      rw [Path.length_join inside.nonempty ordinary_linkEntry, stem, first]
    have := roomy.room
    have : linkEntry.length = 6 := rfl
    rw [whole] at long
    unfold FileTree.maxName at long
    omega

theorem Roomy.isDirectory {size : Nat} (roomy : Roomy d q k size)
    (small : x.entryName.length ≤ size) (landed : Landed d k x) :
    d.isDirectory (q.joinText x.name) = true := by
  have plain : ∀ target, d.tree.get? (k ++ [x.entryName]) ≠ some (.link target) := by
    intro target found
    cases landed.symm.trans found
  obtain same | ⟨_, long⟩ :=
    roomy.leads.find_join x.ordinary_entryName true fun _ => plain
  · have found : d.find (q.joinText x.name) =
        .ok (d.tree.foundAt (k ++ [x.entryName])) := same
    unfold Disk.isDirectory Disk.inspect
    rw [found, FileTree.foundAt, landed]
  · have := roomy.room
    have := x.length_entryName
    rw [Path.length_join roomy.leads.nonempty x.ordinary_entryName] at long
    unfold FileTree.maxName at long
    omega

/-- The first dump of a chain has no link. -/
theorem predecessor_none {size : Nat} (roomy : Roomy d q k size)
    (small : x.entryName.length ≤ size) (landed : Landed d k x)
    (link : d.tree.get? (k ++ [x.entryName] ++ [linkEntry]) = none) :
    predecessor d (x.pathIn q) = .ok none := by
  have there : d.inspectEntry ((x.pathIn q).joinText linkName) =
      .error (.os .noSuchEntry) := by
    unfold Disk.inspectEntry
    rw [roomy.findEntry small landed, FileTree.foundAt, link]
    rfl
  unfold predecessor
  dsimp only
  rw [there]

/-- Any other one leads to the dump before it. -/
theorem predecessor_some {size : Nat} {y : Dump} (roomy : Roomy d q k size)
    (small : x.entryName.length ≤ size) (landed : Landed d k x)
    (link : d.tree.get? (k ++ [x.entryName] ++ [linkEntry]) = linkTo (some y))
    (small' : y.entryName.length ≤ size) (landed' : Landed d k y) :
    predecessor d (x.pathIn q) = .ok (some y.name) := by
  have there : d.inspectEntry ((x.pathIn q).joinText linkName) =
      .ok (.link (Bytes.ofText y.parentPath)) := by
    unfold Disk.inspectEntry
    rw [roomy.findEntry small landed, FileTree.foundAt, link]
    rfl
  obtain ⟨q', short, beside⟩ := sibling_join (d := x) roomy.leads.nonempty y.name
  have directory := (roomy.shortened short).isDirectory small' landed'
  unfold predecessor
  dsimp only
  rw [there]
  simp only [dumpName_parentPath, bind, Except.bind, beside, directory, if_true, pure,
    Except.pure]

/-- The way back from a dump goes through the dumps before it in its chain. -/
theorem walk_eq (r : Replica plans d root k) (ledger : Ledger plans) {size : Nat}
    (fuel : Nat) (names : List String) (roomy : Roomy d q k size)
    (traced : Traced plans (front ++ [x])) (landed : Landed d k x)
    (small : ∀ y ∈ front ++ [x], y.entryName.length ≤ size)
    (fresh : ∀ y ∈ front, y.name ∉ names) (enough : front.length < fuel) :
    walk d fuel (x.pathIn q) names = .ok (front.map Dump.name ++ names) := by
  obtain ⟨fuel, rfl⟩ : ∃ n, fuel = n + 1 := ⟨fuel - 1, by omega⟩
  induction front using List.reverseRecOn generalizing x q fuel names with
  | nil =>
      have none := predecessor_none roomy (small x (by simp)) landed
        (r.told ledger traced.last landed).1
      rw [walk, none]
      rfl
  | append_singleton front y ih =>
      have last := traced.last
      rw [List.getLast?_concat] at last
      obtain ⟨link, bases⟩ := r.told ledger last landed
      have landed' : Landed d k y := bases y rfl
      have some := predecessor_some roomy (small x (by simp)) landed link (small y (by simp))
        landed'
      have new : names.contains y.name = false := by
        rw [Bool.eq_false_iff, ne_eq, List.contains_iff_mem]
        exact fresh y (by simp)
      obtain ⟨q', short, beside⟩ := sibling_join (d := x) roomy.leads.nonempty y.name
      rw [List.length_append, List.length_singleton] at enough
      have ascending := (traced.consecutive ledger).ascending
      have other : ∀ z ∈ front, z.name ∉ y.name :: names := by
        intro z hz mem
        rcases List.mem_cons.1 mem with same | mem
        · have lt := (List.pairwise_append.1 (List.pairwise_append.1 ascending).1).2.2 z hz y
            (by simp)
          rw [(Dump.name_inj.1 same).2] at lt
          exact UInt64.lt_irrefl _ lt
        · exact fresh z (by simp [hz]) mem
      have rest : walk d (fuel - 1 + 1) (y.pathIn q') (y.name :: names) =
          .ok (front.map Dump.name ++ y.name :: names) :=
        ih _ (roomy.shortened short) traced.front landed'
          (fun z hz => small z (List.mem_append_left _ hz)) other _ (by omega)
      rw [walk, some]
      simp only [bind, Except.bind, new, Bool.false_eq_true, if_false, beside]
      rw [show fuel = fuel - 1 + 1 by omega]
      refine rest.trans ?_
      simp

/-- From a dump that is there its whole chain is found again. -/
theorem reconstruct_eq (r : Replica plans d root k) (ledger : Ledger plans)
    (traced : Traced plans ds) (last : ds.getLast? = some x) (landed : Landed d k x)
    (room : ((x.pathIn root).joinText linkName).bytes.length ≤ FileTree.maxPath) :
    reconstruct d (x.pathIn root) = .ok (ds.map Dump.name) := by
  obtain ⟨front, rfl⟩ := List.getLast?_eq_some_iff.1 last
  have leads := r.roots.leads
  have ascending := (traced.consecutive ledger).ascending
  have earlier : ∀ y ∈ front, y.sequence < x.sequence := fun y hy =>
    (List.pairwise_append.1 ascending).2.2 y hy x (by simp)
  have roomy : Roomy d root k x.entryName.length := by
    refine ⟨leads, ?_⟩
    have inside := bytes_pathIn_ne_nil (d := x) leads.nonempty
    have first : (x.pathIn root).bytes.length = root.stem.length + 1 + x.entryName.length :=
      Path.length_join leads.nonempty x.ordinary_entryName
    have stem : (x.pathIn root).stem = (x.pathIn root).bytes :=
      Path.stem_join leads.nonempty x.ordinary_entryName
    have whole : ((x.pathIn root).join linkEntry).bytes.length =
        (x.pathIn root).stem.length + 1 + linkEntry.length :=
      Path.length_join inside ordinary_linkEntry
    rw [stem, first] at whole
    exact whole ▸ room
  have small : ∀ y ∈ front ++ [x], y.entryName.length ≤ x.entryName.length := by
    intro y mem
    rcases List.mem_append.1 mem with mem | mem
    · exact Dump.length_entryName_mono
        (Nat.le_of_lt (UInt64.lt_iff_toNat_lt.1 (earlier y mem)))
    · rw [List.mem_singleton.1 mem]
  have few := length_le_entries ascending (r.landed_all ledger traced landed)
  rw [List.length_append, List.length_singleton] at few
  have walked := r.walk_eq ledger (d.tree.entries.length + 1) [x.name] roomy traced
    landed small ?_ (by omega)
  · unfold reconstruct
    rw [dumpName_pathIn leads.nonempty]
    refine walked.trans ?_
    simp
  · intro y mem named
    have lt := earlier y mem
    rw [(Dump.name_inj.1 (List.mem_singleton.1 named)).2] at lt
    exact UInt64.lt_irrefl _ lt

/-- Where there is no room for the link of a dump its chain cannot be read. -/
theorem reconstruct_of_long (leads : d.Leads root k)
    (long : FileTree.maxPath < ((x.pathIn root).joinText linkName).bytes.length) :
    reconstruct d (x.pathIn root) =
      .error (.unreadable ((x.pathIn root).joinText linkName) (.os .nameTooLong)) := by
  have inside := bytes_pathIn_ne_nil (d := x) leads.nonempty
  have zero : ¬ ((x.pathIn root).joinText linkName).bytes.contains 0 = true := by
    rw [List.contains_iff_mem]
    intro mem
    exact leads.noZero (Path.zero_mem_join leads.nonempty x.ordinary_entryName
      (Path.zero_mem_join inside ordinary_linkEntry mem))
  have full : ¬ ((x.pathIn root).joinText linkName).isEmpty = true := by
    rw [show (x.pathIn root).joinText linkName = (x.pathIn root).join linkEntry from rfl,
      Path.isEmpty, Path.bytes_join inside ordinary_linkEntry]
    simp
  have there : d.inspectEntry ((x.pathIn root).joinText linkName) =
      .error (.os .nameTooLong) := by
    unfold Disk.inspectEntry Disk.findEntry FileTree.find
    rw [if_neg zero, if_neg full, if_pos long]
  unfold reconstruct
  rw [dumpName_pathIn leads.nonempty]
  simp only [bind, Except.bind, walk, predecessor, there]

end Replica

end LiveMigration
