import LiveMigration.Proofs.Cadence.Position

/-!
The period of the cadence. Dumps are counted by a phase that goes up by one with each of
them; a dump is full when its phase is a multiple of the period, and the offset of a pre-dump
is its distance from the last such phase.
-/

namespace LiveMigration

theorem Dump.offset_next? {freq : UInt64} {d e : Dump} (h : d.next? freq = some e) :
    if d.offset.toNat + 1 < freq.toNat then e.kind = .pre ∧ e.offset.toNat = d.offset.toNat + 1
    else e.kind = .full := by
  unfold next? at h
  split at h <;> split
  · exact ⟨(nextPre?_eq_some h).1, (nextPre?_eq_some h).2.2⟩
  · omega
  · omega
  · exact (nextFull?_eq_some h).1

namespace Cadence

/-- Where the cadence stands after a dump of some sequence number and phase. -/
def Stands (freq : UInt64) (sequence phase : Nat) (last : Option Dump) : Position → Prop
  | .within latest => latest.sequence.toNat = sequence ∧ latest.kind = .pre ∧
      last = some latest ∧ latest.offset.toNat + 1 = phase % (freq.toNat + 1)
  | .after closing => closing.sequence.toNat = sequence ∧ (∀ d ∈ last, d.kind = .full) ∧
      phase % (freq.toNat + 1) = 0
  | .fresh => sequence = 0 ∧ last = none ∧ phase % (freq.toNat + 1) = 1

def kindOf (freq : UInt64) (phase : Nat) : Dump.Kind :=
  if (freq.toNat + 1) ∣ phase then .full else .pre

theorem kindOf_eq_full {freq : UInt64} {phase : Nat} (h : phase % (freq.toNat + 1) = 0) :
    kindOf freq phase = .full := by
  unfold kindOf
  rw [if_pos (Nat.dvd_of_mod_eq_zero h)]

theorem kindOf_eq_pre {freq : UInt64} {phase : Nat} (h : phase % (freq.toNat + 1) ≠ 0) :
    kindOf freq phase = .pre := by
  unfold kindOf
  rw [if_neg fun dvd => h (Nat.mod_eq_zero_of_dvd dvd)]

/-- The parent that belongs to a dump: the dump before it, unless that one closed a chain. -/
def parentAfter (last : Option Dump) : Option String :=
  (last.filter (!·.isFull)).map fun d => "../" ++ d.name

/-- One step of the cadence from a pre-dump at some offset. -/
theorem offset_phase {freq : UInt64} {phase : Nat} {d e : Dump}
    (hd : d.offset.toNat + 1 = phase % (freq.toNat + 1)) (h : d.next? freq = some e) :
    e.kind = kindOf freq (phase + 1) ∧
      (e.kind = .pre → e.offset.toNat + 1 = (phase + 1) % (freq.toNat + 1)) := by
  have step := Dump.offset_next? h
  have small : phase % (freq.toNat + 1) < freq.toNat + 1 := Nat.mod_lt _ (Nat.succ_pos _)
  have next : (phase + 1) % (freq.toNat + 1) = (phase % (freq.toNat + 1) + 1) % (freq.toNat + 1) := by
    rw [Nat.mod_add_mod]
  split at step
  · have mid : (phase + 1) % (freq.toNat + 1) = phase % (freq.toNat + 1) + 1 := by
      rw [next]
      exact Nat.mod_eq_of_lt (by omega)
    refine ⟨?_, fun _ => by omega⟩
    rw [step.1, kindOf_eq_pre (by omega)]
  · have last : (phase + 1) % (freq.toNat + 1) = 0 := by
      have : phase % (freq.toNat + 1) + 1 = freq.toNat + 1 := by omega
      rw [next, this, Nat.mod_self]
    refine ⟨by rw [step, kindOf_eq_full last], ?_⟩
    rw [step]
    intro h
    cases h

theorem Stands.next {freq : UInt64} (positive : 1 ≤ freq.toNat) {sequence phase : Nat}
    {last : Option Dump} {chain : Chain} {closed : Option Chain} {p : Plan}
    (h : Stands freq sequence phase last (position chain closed))
    (planned : next? chain closed freq = some p) :
    p.dump.sequence.toNat = sequence + 1 ∧ p.dump.kind = kindOf freq (phase + 1) ∧
      p.parentPath = parentAfter last ∧
      (p.dump.kind = .pre → p.dump.offset.toNat + 1 = (phase + 1) % (freq.toNat + 1)) := by
  unfold next? at planned
  cases hp : position chain closed with
  | within latest =>
      rw [hp] at h planned
      obtain ⟨hs, hk, rfl, ho⟩ := h
      obtain ⟨d, hd, rfl⟩ := Option.map_eq_some_iff.1 planned
      have offsets := offset_phase ho hd
      refine ⟨?_, offsets.1, ?_, offsets.2⟩
      · rw [(Dump.next?_eq_some hd).2, hs]
      · simp [Plan.parentPath, parentAfter, Dump.parentPath, Dump.isFull, hk, Option.filter]
  | after closing =>
      rw [hp] at h planned
      obtain ⟨hs, hl, ho⟩ := h
      obtain ⟨d, hd, rfl⟩ := Option.map_eq_some_iff.1 planned
      obtain ⟨kind, sequence, offset⟩ := Dump.nextInNewChain?_eq_some hd
      have next : (phase + 1) % (freq.toNat + 1) = 1 := by
        rw [Nat.add_mod, ho, Nat.zero_add, Nat.mod_mod]
        exact Nat.mod_eq_of_lt (by omega)
      refine ⟨?_, ?_, ?_, ?_⟩
      · rw [sequence, hs]
      · rw [kind, kindOf_eq_pre (by omega)]
      · cases last with
        | none => rfl
        | some d =>
            have := hl d rfl
            simp [Plan.parentPath, parentAfter, Dump.isFull, this, Option.filter]
      · intro _
        rw [next, offset]
        rfl
  | fresh =>
      rw [hp] at h planned
      obtain ⟨rfl, rfl, ho⟩ := h
      obtain ⟨d, hd, rfl⟩ := Option.map_eq_some_iff.1 planned
      have offsets := offset_phase (d := Dump.first) (ho.symm) hd
      refine ⟨?_, offsets.1, rfl, offsets.2⟩
      exact (Dump.next?_eq_some hd).2

/-- The cadence stands one dump further once the dump is in the chain and a full one has
closed it. -/
theorem stands_of_push {freq : UInt64} {sequence phase : Nat} {chain : Chain}
    {closed : Option Chain} {d : Dump} (hs : d.sequence.toNat = sequence)
    (hk : d.kind = kindOf freq phase)
    (ho : d.kind = .pre → d.offset.toNat + 1 = phase % (freq.toNat + 1))
    (pre : d.kind = .pre → chain.latest? = some d)
    (full : d.kind = .full → chain.latest? = none ∧ closed.bind Chain.latest? = some d) :
    Stands freq sequence phase (some d) (position chain closed) := by
  unfold kindOf at hk
  split at hk
  · rename_i dvd
    obtain ⟨empty, closing⟩ := full hk
    rw [position_of_closing empty closing]
    refine ⟨hs, ?_, Nat.mod_eq_zero_of_dvd dvd⟩
    rintro _ ⟨⟩
    exact hk
  · rw [position_of_latest (pre hk)]
    exact ⟨hs, hk, rfl, ho hk⟩

end Cadence

end LiveMigration
