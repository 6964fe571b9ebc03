import LiveMigration.Lineage
import LiveMigration.Proofs.Disk.Paths
import LiveMigration.Proofs.Dump.Name
import LiveMigration.Proofs.Text.Bytes

/-!
The directory of a dump and its link. Names of dumps are plain ASCII and stand for entries of
a directory, so a dump can be told from the path of its directory, and from a link that names
it.
-/

namespace LiveMigration

open Bytes

namespace Dump

def entryName (d : Dump) : Bytes := ofText d.name

theorem entryName_eq_map (d : Dump) :
    d.entryName = d.name.toList.map fun c => UInt8.ofNat c.toNat := by
  rw [entryName, ← ofText_ofList_ascii fun _ mem => (bounds_of_mem_name mem).2,
    String.ofList_toList]

theorem entryName_eq (d : Dump) :
    d.entryName = UInt8.ofNat d.kind.letter.toNat ::
      (Nat.toDigits 10 d.sequence.toNat).map fun c => UInt8.ofNat c.toNat := by
  rw [entryName_eq_map, toList_name]
  rfl

/-- The bytes of a dump's name are letters and digits. -/
theorem mem_entryName {d : Dump} {b : UInt8} (mem : b ∈ d.entryName) :
    48 ≤ b.toNat ∧ b.toNat < 128 := by
  rw [entryName_eq_map] at mem
  obtain ⟨c, hc, rfl⟩ := List.mem_map.1 mem
  obtain ⟨low, high⟩ := bounds_of_mem_name hc
  rw [UInt8.toNat_ofNat']
  omega

theorem ordinary_entryName (d : Dump) : Path.Ordinary d.entryName := by
  have above (b : UInt8) (small : b.toNat < 48) : b ∉ d.entryName := fun mem =>
    Nat.not_lt.2 (mem_entryName mem).1 small
  refine ⟨?_, above _ (by decide), above _ (by decide), ?_, ?_⟩
  · rw [entryName_eq]
    exact List.cons_ne_nil _ _
  · intro same
    exact above 0x2E (by decide) (same ▸ List.mem_cons_self ..)
  · intro same
    exact above 0x2E (by decide) (same ▸ List.mem_cons_self ..)

theorem length_entryName (d : Dump) : d.entryName.length ≤ 21 := by
  rw [entryName_eq, List.length_cons, List.length_map]
  have bound : d.sequence.toNat < 10 ^ 20 :=
    Nat.lt_of_lt_of_le d.sequence.toNat_lt_size (by decide)
  have := (Nat.length_toDigits_le_iff (b := 10) (n := d.sequence.toNat) (k := 20)
    (by decide) (by decide)).2 bound
  omega

theorem entryName_inj {a b : Dump} : a.entryName = b.entryName ↔ a.Same b :=
  ⟨fun h => name_inj.1 (ofText_injective h), fun h => congrArg ofText (name_inj.2 h)⟩

/-- An earlier dump has no longer name. -/
theorem length_entryName_mono {a b : Dump} (h : a.sequence.toNat ≤ b.sequence.toNat) :
    a.entryName.length ≤ b.entryName.length := by
  have positive : 0 < (Nat.toDigits 10 b.sequence.toNat).length :=
    List.length_pos_iff.2 Nat.toDigits_ne_nil
  have bound := (Nat.length_toDigits_le_iff (b := 10) (by decide) positive).1 (Nat.le_refl _)
  have := (Nat.length_toDigits_le_iff (b := 10) (by decide) positive).2 (Nat.lt_of_le_of_lt h bound)
  rw [entryName_eq, entryName_eq]
  simpa using this

end Dump

namespace Lineage

def linkEntry : Bytes := ofText linkName

theorem ordinary_linkEntry : Path.Ordinary linkEntry := by
  refine ⟨?_, ?_, ?_, ?_, ?_⟩ <;> decide

variable {root : Path} {d : Dump}

theorem dumpName_of_fileName? {p place : Path} (named : p.fileName? = some d.entryName) :
    dumpName p place = .ok d.name := by
  unfold dumpName
  simp only [named, Dump.entryName, Option.bind_some, text?_ofText, Dump.ofName_name]

theorem dumpName_join {p place : Path} (h : p.bytes ≠ []) :
    dumpName (p.join d.entryName) place = .ok d.name :=
  dumpName_of_fileName? (Path.fileName?_join h d.ordinary_entryName)

theorem bytes_pathIn_ne_nil (h : root.bytes ≠ []) : (d.pathIn root).bytes ≠ [] := by
  rw [show d.pathIn root = root.join d.entryName from rfl, Path.bytes_join h d.ordinary_entryName]
  simp

theorem dumpName_pathIn {place : Path} (h : root.bytes ≠ []) :
    dumpName (d.pathIn root) place = .ok d.name :=
  dumpName_join h

/-- A link that goes to a dump beside this one. -/
theorem dumpName_parentPath {place : Path} : dumpName ⟨ofText d.parentPath⟩ place = .ok d.name := by
  have beside : (⟨ofText d.parentPath⟩ : Path) = (⟨Path.dotDot⟩ : Path).join d.entryName := by
    have ne : (⟨Path.dotDot⟩ : Path).bytes ≠ [] := List.cons_ne_nil _ _
    refine congrArg Path.mk ?_
    have joined := Path.bytes_join ne d.ordinary_entryName
    unfold Path.join at joined
    rw [Dump.parentPath, ofText_append]
    exact joined.symm
  rw [beside]
  exact dumpName_join (List.cons_ne_nil _ _)

theorem sibling_join (h : root.bytes ≠ []) (name : String) :
    ∃ q, Path.Shortened root q ∧ sibling (d.pathIn root) name = q.joinText name := by
  obtain ⟨q, parted, short⟩ := Path.parent?_join h d.ordinary_entryName
  refine ⟨q, short, ?_⟩
  have : (d.pathIn root).parent? = some q := parted
  unfold sibling
  rw [this]

end Lineage

end LiveMigration
