import LiveMigration.Proofs.Rpc.Codec
import Mathlib.Data.List.Nodup
import Mathlib.Data.List.Perm.Basic

/-!
Handoffs and the order in which their dumps are named. Names make a message exactly if they
are names of dumps, each number once, and the rest of it is right; the message then has these
dumps in the order of their numbers, so that it does not matter in which order they came.
-/

namespace LiveMigration

namespace Dump

/-- Names can be read exactly if they are the names of some dumps. -/
theorem ofNames_eq_ok_iff {names : List String} {ds : List Dump} :
    ofNames names = .ok ds ↔ names = ds.map name ∧ ∀ d ∈ ds, d.offset = 0 := by
  constructor
  · intro h
    refine ⟨?_, offset_of_mem_ofNames h⟩
    induction names generalizing ds with
    | nil =>
        cases h
        rfl
    | cons n names ih =>
        obtain ⟨d, hd, h⟩ := Rpc.ok_of_bind h
        obtain ⟨rest, hrest, h⟩ := Rpc.ok_of_bind h
        cases h
        rw [List.map_cons, name_of_ofName hd, ← ih hrest]
  · rintro ⟨rfl, known⟩
    have same : ds.map (fun d => { d with offset := 0 }) = ds := by
      refine (List.map_congr_left (g := id) ?_).trans (List.map_id _)
      intro d hd
      rw [← known d hd]
      rfl
    rw [ofNames_names, same]

end Dump

namespace Rpc

theorem perm_inSequence (ds : List Dump) : (inSequence ds).Perm ds :=
  List.mergeSort_perm ds _

theorem pairwise_inSequence (ds : List Dump) :
    (inSequence ds).Pairwise fun a b => a.sequence ≤ b.sequence := by
  refine (List.pairwise_mergeSort ?_ ?_ ds).imp of_decide_eq_true
  · intro a b c first second
    exact decide_eq_true (UInt64.le_trans (of_decide_eq_true first) (of_decide_eq_true second))
  · intro a b
    simpa using UInt64.le_total a.sequence b.sequence

/-- Once they are sorted, dumps go up strictly unless a number is there twice. -/
theorem ascending_inSequence_iff {ds : List Dump} :
    ascending (inSequence ds) = true ↔ (ds.map Dump.sequence).Nodup := by
  rw [ascending_iff, ← ((perm_inSequence ds).map Dump.sequence).nodup_iff]
  constructor
  · intro up
    exact List.pairwise_map.2 (up.imp fun lt => UInt64.ne_of_lt lt)
  · intro once
    have apart : (inSequence ds).Pairwise fun a b => a.sequence ≠ b.sequence :=
      List.pairwise_map.1 once
    refine (List.Pairwise.and (pairwise_inSequence ds) apart).imp ?_
    rintro a b ⟨le, ne⟩
    exact UInt64.lt_of_le_of_ne le ne

/-- Dumps with different numbers can be sorted in one way only. -/
theorem inSequence_eq_of_perm {ds ds' : List Dump} (p : ds.Perm ds')
    (once : (ds.map Dump.sequence).Nodup) : inSequence ds = inSequence ds' := by
  have sorted : (inSequence ds).Perm (inSequence ds') :=
    (perm_inSequence ds).trans (p.trans (perm_inSequence ds').symm)
  refine sorted.eq_of_pairwise ?_ (pairwise_inSequence ds) (pairwise_inSequence ds')
  intro a b ha hb le ge
  have inside : b ∈ ds := p.mem_iff.2 (mem_inSequence.1 hb)
  exact List.inj_on_of_nodup_map once (mem_inSequence.1 ha) inside (UInt64.le_antisymm le ge)

namespace Migrate

/-- What a message has to be made of. -/
theorem new_eq_ok_iff {names : List String} {id : String} {bundle : Path} {m : Migrate} :
    Migrate.new names id bundle = .ok m ↔ ∃ ds, names = ds.map Dump.name ∧
      (∀ d ∈ ds, d.offset = 0) ∧ (ds.map Dump.sequence).Nodup ∧ m.dumps = inSequence ds ∧
      m.container.text = id ∧ m.bundle = bundle := by
  constructor
  · intro h
    obtain ⟨ds, read, dumps, container, bundle⟩ := dumps_of_new h
    obtain ⟨named, known⟩ := Dump.ofNames_eq_ok_iff.1 read
    refine ⟨ds, named, known, ?_, dumps, container, bundle⟩
    rw [← ascending_inSequence_iff, ← dumps]
    exact m.ascending
  · rintro ⟨ds, rfl, known, once, dumps, rfl, rfl⟩
    have some : ds.map Dump.name ≠ [] := by
      intro none
      obtain rfl := List.map_eq_nil_iff.1 none
      exact m.nonempty (dumps.trans (List.mergeSort_nil))
    have bundled : ¬ m.bundle.isEmpty = true := by
      rw [m.bundled]
      exact Bool.false_ne_true
    have read := Dump.ofNames_eq_ok_iff.2 ⟨rfl, known⟩
    unfold Migrate.new
    rw [dif_neg some]
    split
    · rename_i failed
      rw [read] at failed
      cases failed
    · rename_i ds' hds
      obtain rfl : ds = ds' := Except.ok.inj (read.symm.trans hds)
      rw [dif_pos (ascending_inSequence_iff.2 once), containerOf_text]
      simp only [bind, Except.bind, dif_neg bundled, pure, Except.pure, ← dumps]

/-- A message does not depend on the order in which its dumps were named. -/
theorem new_of_perm {names names' : List String} {id : String} {bundle : Path} {m : Migrate}
    (p : names.Perm names') (h : Migrate.new names id bundle = .ok m) :
    Migrate.new names' id bundle = .ok m := by
  obtain ⟨ds, named, known, once, dumps, container, bundle⟩ := new_eq_ok_iff.1 h
  have own : List.Forall₂ (fun name d => name = Dump.name d) names ds :=
    List.forall₂_map_right_iff.1 (List.forall₂_eq_eq_eq ▸ named)
  obtain ⟨ds', own', p'⟩ := List.perm_comp_forall₂ p.symm own
  have named' : names' = ds'.map Dump.name :=
    List.forall₂_eq_eq_eq ▸ List.forall₂_map_right_iff.2 own'
  refine new_eq_ok_iff.2 ⟨ds', named', fun d hd => known d (p'.mem_iff.1 hd), ?_, ?_, container,
    bundle⟩
  · exact (p'.map Dump.sequence).nodup_iff.2 once
  · rw [dumps, inSequence_eq_of_perm p'.symm once]

/-- Some names make a message exactly if they are the names of dumps with different numbers, and
the identifier and the bundle are right. -/
theorem new_isOk_iff {names : List String} {id : String} {bundle : Path} :
    (∃ m, Migrate.new names id bundle = .ok m) ↔ names ≠ [] ∧
      (∃ ds : List Dump, names = ds.map Dump.name ∧ (ds.map Dump.sequence).Nodup) ∧
      ContainerId.IsValid id ∧ bundle.bytes ≠ [] := by
  constructor
  · rintro ⟨m, h⟩
    have formed : (Message.migrate m).WellFormed := wellFormed _
    obtain ⟨ds, rfl, -, once, dumps, rfl, rfl⟩ := new_eq_ok_iff.1 h
    refine ⟨?_, ⟨ds, rfl, once⟩, m.container.isValid_text, formed.2.2.2⟩
    intro none
    obtain rfl := List.map_eq_nil_iff.1 none
    exact m.nonempty (dumps.trans (List.mergeSort_nil))
  · rintro ⟨some, ⟨ds, rfl, once⟩, valid, bundled⟩
    let bare := ds.map fun d => { d with offset := 0 }
    have same : bare.map Dump.name = ds.map Dump.name := List.map_map ..
    have numbers : bare.map Dump.sequence = ds.map Dump.sequence := List.map_map ..
    have once : (bare.map Dump.sequence).Nodup := numbers ▸ once
    let m : Migrate := {
      dumps := inSequence bare
      container := ⟨id, ContainerId.objection?_eq_none_iff.2 valid⟩
      bundle
      nonempty := by
        intro none
        have empty : bare = [] := (none ▸ perm_inSequence bare).nil_eq.symm
        rw [← same, empty] at some
        exact some rfl
      ascending := ascending_inSequence_iff.2 once
      named := fun d hd => by
        obtain ⟨x, -, rfl⟩ := List.mem_map.1 (mem_inSequence.1 hd)
        rfl
      bundled := by simpa [Path.isEmpty] using bundled }
    refine ⟨m, new_eq_ok_iff.2 ⟨bare, same.symm, ?_, once, rfl, rfl, rfl⟩⟩
    intro d hd
    obtain ⟨x, -, rfl⟩ := List.mem_map.1 hd
    rfl

/-- Names that come in another order make the same message, or none either. They make one exactly
if they are the names of dumps with different numbers, and the rest is right; it has these dumps,
and their numbers go up. -/
theorem arrival_order {names names' : List String} (p : names.Perm names') (id : String)
    (bundle : Path) :
    (∀ m, Migrate.new names id bundle = .ok m ↔ Migrate.new names' id bundle = .ok m) ∧
      ((∃ m, Migrate.new names id bundle = .ok m) ↔ names ≠ [] ∧
        (∃ ds : List Dump, names = ds.map Dump.name ∧ (ds.map Dump.sequence).Nodup) ∧
        ContainerId.IsValid id ∧ bundle.bytes ≠ []) ∧
      ∀ m, Migrate.new names id bundle = .ok m →
        m.dumps.Pairwise (fun a b => a.sequence < b.sequence) ∧ m.names.Perm names ∧
          m.container.text = id ∧ m.bundle = bundle := by
  refine ⟨fun m => ⟨new_of_perm p, new_of_perm p.symm⟩, new_isOk_iff, fun m h => ?_⟩
  obtain ⟨ds, rfl, -, -, dumps, container, bundle⟩ := new_eq_ok_iff.1 h
  refine ⟨ascending_iff.1 m.ascending, ?_, container, bundle⟩
  rw [Migrate.names, dumps]
  exact (perm_inSequence ds).map Dump.name

def sampleContainer : ContainerId := ⟨"box", by decide +kernel⟩

/-- By their texts the names would be in another order. -/
theorem arrival_order_sample :
    ["c2", "p9", "d10"].Perm ["d10", "p9", "c2"] ∧
      ∃ m, Migrate.new ["d10", "p9", "c2"] "box" ⟨[Path.slash]⟩ = .ok m ∧
        m.names = ["c2", "p9", "d10"] := by
  have p : ["c2", "p9", "d10"].Perm ["d10", "p9", "c2"] := by decide
  let ds : List Dump := [⟨.checkpoint, 2, 0⟩, ⟨.pre, 9, 0⟩, ⟨.full, 10, 0⟩]
  have named : ds.map Dump.name = ["c2", "p9", "d10"] := by decide +kernel
  have sorted : ds.Pairwise fun a b => a.sequence < b.sequence := by decide
  obtain ⟨m, h⟩ := exists_new (List.cons_ne_nil _ _) sorted sampleContainer ⟨[Path.slash]⟩ rfl
  have names := names_of_new sorted h
  rw [named] at h names
  exact ⟨p, m, ((arrival_order p "box" ⟨[Path.slash]⟩).1 m).1 h, names⟩

end Migrate

end Rpc

end LiveMigration
