import LiveMigration.Proofs.Cadence.Phase

/-!
How long the sequence numbers last. A dump can be derived as long as the number after the last one
is a number of 64 bits: the offset of a dump never gets in the way, since it stays below the period
of the cadence.
-/

namespace LiveMigration

namespace Dump

theorem successor?_eq_none_iff {n : UInt64} :
    successor? n = none ↔ UInt64.size ≤ n.toNat + 1 := by
  unfold successor?
  split
  · rename_i small
    exact iff_of_false nofun (Nat.not_le.2 small)
  · rename_i large
    exact iff_of_true rfl (Nat.le_of_not_lt large)

theorem nextFull?_eq_none_iff {d : Dump} :
    d.nextFull? = none ↔ UInt64.size ≤ d.sequence.toNat + 1 := by
  rw [← successor?_eq_none_iff, nextFull?]
  cases successor? d.sequence <;> simp

theorem nextInNewChain?_eq_none_iff {d : Dump} :
    d.nextInNewChain? = none ↔ UInt64.size ≤ d.sequence.toNat + 1 := by
  rw [← successor?_eq_none_iff, nextInNewChain?]
  cases successor? d.sequence <;> simp

theorem checkpoint?_eq_none_iff {d : Dump} :
    d.checkpoint? = none ↔ UInt64.size ≤ d.sequence.toNat + 1 := by
  rw [← successor?_eq_none_iff, checkpoint?]
  cases successor? d.sequence <;> simp

theorem nextPre?_eq_none_iff {d : Dump} (offset : d.offset.toNat + 1 < UInt64.size) :
    d.nextPre? = none ↔ UInt64.size ≤ d.sequence.toNat + 1 := by
  have within : successor? d.offset ≠ none := by
    rw [Ne, successor?_eq_none_iff]
    omega
  obtain ⟨n, there⟩ := Option.ne_none_iff_exists'.1 within
  rw [← successor?_eq_none_iff, nextPre?, there]
  cases successor? d.sequence <;> simp

/-- The offset goes up only while it is below the period. -/
theorem next?_eq_none_iff {freq : UInt64} {d : Dump} :
    d.next? freq = none ↔ UInt64.size ≤ d.sequence.toNat + 1 := by
  have period := freq.toNat_lt_size
  unfold next?
  split
  · exact nextPre?_eq_none_iff (by omega)
  · exact nextFull?_eq_none_iff

end Dump

namespace Cadence

theorem next?_eq_none_iff {chain : Chain} {closed : Option Chain} {freq : UInt64} :
    next? chain closed freq = none ↔ UInt64.size ≤ lastSequence chain closed + 1 := by
  unfold next? lastSequence checkpointBase
  cases position chain closed <;> dsimp only <;> rw [Option.map_eq_none_iff]
  · exact Dump.next?_eq_none_iff
  · exact Dump.nextInNewChain?_eq_none_iff
  · exact Dump.next?_eq_none_iff

theorem checkpoint?_eq_none_iff {chain : Chain} {closed : Option Chain} :
    (checkpointBase chain closed).checkpoint? = none ↔
      UInt64.size ≤ lastSequence chain closed + 1 :=
  Dump.checkpoint?_eq_none_iff

section

variable {freq : UInt64} {sequence phase : Nat} {last : Option Dump} {chain : Chain}
  {closed : Option Chain}

theorem Stands.lastSequence_eq (stands : Stands freq sequence phase last (position chain closed)) :
    lastSequence chain closed = sequence := by
  unfold lastSequence checkpointBase
  cases there : position chain closed <;> rw [there] at stands
  · exact stands.1
  · exact stands.1
  · exact stands.1.symm

theorem Stands.finalPre?_eq_none_iff
    (stands : Stands freq sequence phase last (position chain closed)) :
    finalPre? chain closed = none ↔ UInt64.size ≤ sequence + 1 := by
  unfold finalPre?
  cases there : position chain closed <;> rw [there] at stands <;> dsimp only <;>
    rw [Option.map_eq_none_iff]
  · have period := freq.toNat_lt_size
    have phased : phase % (freq.toNat + 1) < freq.toNat + 1 := Nat.mod_lt _ (Nat.succ_pos _)
    obtain ⟨same, _, _, offset⟩ := stands
    rw [Dump.nextPre?_eq_none_iff (by omega), same]
  · rw [Dump.nextInNewChain?_eq_none_iff, stands.1]
  · rw [Dump.nextPre?_eq_none_iff (by decide), stands.1]
    rfl

/-- The two last dumps of a handoff have numbers if there are two numbers left. -/
theorem Stands.finalDumps_iff
    (stands : Stands freq sequence phase last (position chain closed)) :
    (∃ pre full, finalPre? chain closed = some pre ∧ pre.dump.nextFull? = some full) ↔
      sequence + 2 < UInt64.size := by
  cases planned : finalPre? chain closed with
  | none =>
      have large := stands.finalPre?_eq_none_iff.1 planned
      refine iff_of_false ?_ (by omega)
      rintro ⟨_, _, h, _⟩
      cases h
  | some pre =>
      have number := (finalPre?_eq_some planned).2.2
      rw [stands.lastSequence_eq] at number
      constructor
      · rintro ⟨_, full, ⟨⟩, follows⟩
        have := full.sequence.toNat_lt_size
        have := (Dump.nextFull?_eq_some follows).2.1
        omega
      · intro room
        have there : pre.dump.nextFull? ≠ none := by
          rw [Ne, Dump.nextFull?_eq_none_iff]
          omega
        obtain ⟨full, follows⟩ := Option.ne_none_iff_exists'.1 there
        exact ⟨pre, full, rfl, follows⟩

end

end Cadence

end LiveMigration
