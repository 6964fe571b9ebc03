import LiveMigration.Proofs.Chain.Pass
import LiveMigration.Proofs.Dump.Derivation
import LiveMigration.Proofs.Dump.Name

/-!
Chains that are built anew from their dumps. The dumps are the same as before and in the same
order, but names do not tell offsets, so these are counted again from the oldest dump on. For dumps
that are derived one from another the count comes to the offsets they had, if it begins where they
began, at zero.
-/

namespace LiveMigration

variable {start : UInt64} {d e : Dump} {ds : List Dump}

namespace Dump

/-- A dump gets its own offset back if that is the next one of the count. -/
theorem withOffset_eq_self_iff :
    ({ d with offset := 0 } : Dump).withOffset start = d ↔
      d.offset = if d.isFull then 0 else start := by
  obtain ⟨kind, sequence, offset⟩ := d
  simp [withOffset, isFull, eq_comm]

theorem withOffset_of_full (full : d.isFull = true) (offset : d.offset = 0) (n : UInt64) :
    d.withOffset n = d := by
  rw [withOffset, if_pos full, ← offset]

theorem withOffset_of_stepsTo (one : StepsTo d e) :
    ({ e with offset := 0 } : Dump).withOffset (d.offset + 1) = e := by
  rw [withOffset_eq_self_iff, ← UInt64.toNat_inj, one.offset]
  split
  · rfl
  · rename_i plain
    have own := one.offset
    rw [if_neg plain] at own
    have small := e.offset.toNat_lt_size
    rw [UInt64.toNat_add]
    exact (Nat.mod_eq_of_lt (by rwa [own] at small)).symm

end Dump

namespace Chain

/-! ## The dumps themselves -/

theorem names_ofDumps (ds : List Dump) : (ofDumps ds).names = ds.map Dump.name := by
  rw [names, dumps_ofDumps]
  generalize (0 : UInt64) = start
  induction ds generalizing start with
  | nil => rfl
  | cons d ds ih =>
      rw [withOffsets, List.map_cons, List.map_cons, ih]
      rfl

theorem dumps_ofDumps_ne_nil (h : ds ≠ []) : (ofDumps ds).dumps ≠ [] := by
  cases ds with
  | nil => exact absurd rfl h
  | cons d ds => nofun

theorem name_latest?_ofDumps (last : ds.getLast? = some d) :
    (ofDumps ds).latest?.map Dump.name = some d.name := by
  rw [latest?_eq, ← List.getLast?_map, ← names, names_ofDumps, List.getLast?_map, last]
  rfl

theorem latest?_ofDumps (last : ds.getLast? = some d) :
    ∃ latest, (ofDumps ds).latest? = some latest ∧ latest.Same d := by
  obtain ⟨latest, there, name⟩ := Option.map_eq_some_iff.1 (name_latest?_ofDumps last)
  exact ⟨latest, there, Dump.name_inj.1 name⟩

/-! ## Their offsets -/

/-- Working out the offsets anew leaves a full dump at the end as it is. -/
theorem getLast?_withOffsets (full : d.isFull = true) (offset : d.offset = 0)
    (last : ds.getLast? = some d) (start : UInt64) :
    (withOffsets start ds).getLast? = some d := by
  induction ds generalizing start with
  | nil => cases last
  | cons x rest ih =>
      rw [withOffsets]
      cases rest with
      | nil =>
          obtain rfl : x = d := Option.some.inj last
          exact congrArg some (Dump.withOffset_of_full full offset start)
      | cons y rest =>
          rw [List.getLast?_cons_cons] at last
          rw [withOffsets, List.getLast?_cons_cons]
          exact ih last _

/-- The count goes on as the derivation does. -/
theorem withOffsets_eq_self_iff (chain : (d :: ds).IsChain Dump.StepsTo) :
    withOffsets start ((d :: ds).map fun d => { d with offset := 0 }) = d :: ds ↔
      d.offset = if d.isFull then 0 else start := by
  rw [← Dump.withOffset_eq_self_iff]
  induction ds generalizing start d with
  | nil => simp [withOffsets]
  | cons e ds ih =>
      obtain ⟨one, rest⟩ := List.isChain_cons_cons.1 chain
      constructor
      · intro same
        exact (List.cons.inj same).1
      · intro first
        rw [List.map_cons, withOffsets, first, (ih rest).2 (Dump.withOffset_of_stepsTo one)]

/-- From a dump at offset zero any steps can be taken as long as there are numbers for them. When
a chain is built from the names of a dump and those derived from it, it has the same dumps in the
same order and at the same offsets, exactly if the first one is at offset zero. -/
theorem rebuilt_offsets (start : Dump) (steps : List Dump.Derivation) :
    (start.offset = 0 → ((∃ ds, Dump.derived? start steps = some ds) ↔
      start.sequence.toNat + steps.length < UInt64.size)) ∧
    ∀ ds, Dump.derived? start steps = some ds →
      ∃ read, Dump.ofNames (ds.map Dump.name) = .ok read ∧
        ((ofDumps read).dumps = ds ↔ start.offset = 0) := by
  refine ⟨fun origin => Dump.exists_derived?_iff ?_, fun ds derived => ?_⟩
  · rw [origin]
    exact Nat.zero_le _
  · obtain ⟨rest, rfl, -, chain⟩ := Dump.derived?_eq_some derived
    refine ⟨_, Dump.ofNames_names _, ?_⟩
    rw [dumps_ofDumps, withOffsets_eq_self_iff chain, ite_self]

def sampleSteps : List Dump.Derivation := [.pre, .next 5, .full, .pre, .pre, .next 4, .next 0]

def sampleDerived : List Dump :=
  [⟨.checkpoint, 7, 0⟩, ⟨.pre, 8, 1⟩, ⟨.pre, 9, 2⟩, ⟨.full, 10, 0⟩, ⟨.pre, 11, 1⟩, ⟨.pre, 12, 2⟩,
    ⟨.pre, 13, 3⟩, ⟨.full, 14, 0⟩]

theorem rebuilt_offsets_sample :
    Dump.derived? ⟨.checkpoint, 7, 0⟩ sampleSteps = some sampleDerived ∧
      ∃ read, Dump.ofNames (sampleDerived.map Dump.name) = .ok read ∧
        (ofDumps read).dumps = sampleDerived := by
  have derived : Dump.derived? ⟨.checkpoint, 7, 0⟩ sampleSteps = some sampleDerived := by decide
  obtain ⟨read, named, same⟩ := (rebuilt_offsets ⟨.checkpoint, 7, 0⟩ sampleSteps).2 _ derived
  exact ⟨derived, read, named, same.2 rfl⟩

end Chain

end LiveMigration
