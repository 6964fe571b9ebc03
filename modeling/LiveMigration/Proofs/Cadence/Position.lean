import LiveMigration.Cadence
import LiveMigration.Proofs.Chain.Pass

/-!
Where the next dump starts from. It depends on the dumps of the two chains alone, not on who
holds them, and every dump that is planned is one further in the sequence than the last one.
-/

namespace LiveMigration

namespace Cadence

section

variable {chain : Chain} {closed : Option Chain} {d : Dump}

theorem position_of_latest (h : chain.latest? = some d) : position chain closed = .within d := by
  rw [position, h]

theorem position_of_closing (empty : chain.latest? = none)
    (h : closed.bind Chain.latest? = some d) : position chain closed = .after d := by
  rw [position, empty, h]

theorem position_of_fresh (empty : chain.latest? = none)
    (h : closed.bind Chain.latest? = none) : position chain closed = .fresh := by
  rw [position, empty, h]

/-- The dump that the next one builds on. -/
def Position.base? : Position → Option Dump
  | .within latest => some latest
  | .after _ | .fresh => none

theorem base?_position (chain : Chain) (closed : Option Chain) :
    (position chain closed).base? = chain.latest? := by
  cases latest : chain.latest? with
  | some d => rw [position_of_latest latest, Position.base?]
  | none =>
      cases closing : closed.bind Chain.latest? with
      | some d => rw [position_of_closing latest closing, Position.base?]
      | none => rw [position_of_fresh latest closing, Position.base?]

end

theorem position_congr {chain chain' : Chain} {closed closed' : Option Chain}
    (h : chain'.dumps = chain.dumps)
    (hc : closed'.map Chain.dumps = closed.map Chain.dumps) :
    position chain' closed' = position chain closed := by
  have latest : chain'.latest? = chain.latest? := by
    rw [Chain.latest?_eq, Chain.latest?_eq, h]
  have closing : closed'.bind Chain.latest? = closed.bind Chain.latest? := by
    have bind_eq (c : Option Chain) :
        c.bind Chain.latest? = (c.map Chain.dumps).bind List.getLast? := by
      cases c with
      | none => rfl
      | some c => exact c.latest?_eq
    rw [bind_eq, bind_eq, hc]
  unfold position
  rw [latest, closing]

end Cadence

namespace Dump

theorem nextPre?_eq_some {d e : Dump} (h : d.nextPre? = some e) :
    e.kind = .pre ∧ e.sequence.toNat = d.sequence.toNat + 1 ∧
      e.offset.toNat = d.offset.toNat + 1 := by
  obtain ⟨sequence, hs, h⟩ := Option.bind_eq_some_iff.1 h
  obtain ⟨offset, ho, h⟩ := Option.bind_eq_some_iff.1 h
  cases h
  exact ⟨rfl, successor?_eq_some_iff.1 hs, successor?_eq_some_iff.1 ho⟩

theorem nextFull?_eq_some {d e : Dump} (h : d.nextFull? = some e) :
    e.kind = .full ∧ e.sequence.toNat = d.sequence.toNat + 1 ∧ e.offset = 0 := by
  obtain ⟨sequence, hs, h⟩ := Option.bind_eq_some_iff.1 h
  cases h
  exact ⟨rfl, successor?_eq_some_iff.1 hs, rfl⟩

theorem nextInNewChain?_eq_some {d e : Dump} (h : d.nextInNewChain? = some e) :
    e.kind = .pre ∧ e.sequence.toNat = d.sequence.toNat + 1 ∧ e.offset = 0 := by
  obtain ⟨sequence, hs, h⟩ := Option.bind_eq_some_iff.1 h
  cases h
  exact ⟨rfl, successor?_eq_some_iff.1 hs, rfl⟩

theorem checkpoint?_eq_some {d e : Dump} (h : d.checkpoint? = some e) :
    e.kind = .checkpoint ∧ e.sequence.toNat = d.sequence.toNat + 1 := by
  obtain ⟨sequence, hs, h⟩ := Option.bind_eq_some_iff.1 h
  cases h
  exact ⟨rfl, successor?_eq_some_iff.1 hs⟩

theorem next?_eq_some {freq : UInt64} {d e : Dump} (h : d.next? freq = some e) :
    e.kind ≠ .checkpoint ∧ e.sequence.toNat = d.sequence.toNat + 1 := by
  unfold next? at h
  split at h
  · have := nextPre?_eq_some h
    exact ⟨by simp [this.1], this.2.1⟩
  · have := nextFull?_eq_some h
    exact ⟨by simp [this.1], this.2.1⟩

end Dump

namespace Cadence

/-- The last number of the sequence that was used for a dump of the cadence. -/
def lastSequence (chain : Chain) (closed : Option Chain) : Nat :=
  (checkpointBase chain closed).sequence.toNat

theorem lastSequence_eq {chain : Chain} {closed : Option Chain} {latest : Dump}
    (h : chain.latest? = some latest) :
    lastSequence chain closed = latest.sequence.toNat := by
  rw [lastSequence, checkpointBase, position_of_latest h]

theorem lastSequence_of_closing {chain : Chain} {closed : Option Chain} {closing : Dump}
    (empty : chain.latest? = none) (h : closed.bind Chain.latest? = some closing) :
    lastSequence chain closed = closing.sequence.toNat := by
  rw [lastSequence, checkpointBase, position_of_closing empty h]

theorem next?_eq_some {chain : Chain} {closed : Option Chain} {freq : UInt64} {p : Plan}
    (h : next? chain closed freq = some p) :
    p.dump.kind ≠ .checkpoint ∧ p.base = chain.latest? ∧
      p.dump.sequence.toNat = lastSequence chain closed + 1 := by
  rw [next?] at h
  rw [← base?_position chain closed, lastSequence, checkpointBase]
  cases stands : position chain closed with
  | within latest =>
      rw [stands] at h
      obtain ⟨d, hd, rfl⟩ := Option.map_eq_some_iff.1 h
      have := Dump.next?_eq_some hd
      exact ⟨this.1, rfl, this.2⟩
  | after closing =>
      rw [stands] at h
      obtain ⟨d, hd, rfl⟩ := Option.map_eq_some_iff.1 h
      have := Dump.nextInNewChain?_eq_some hd
      exact ⟨by simp [this.1], rfl, this.2.1⟩
  | fresh =>
      rw [stands] at h
      obtain ⟨d, hd, rfl⟩ := Option.map_eq_some_iff.1 h
      have := Dump.next?_eq_some hd
      exact ⟨this.1, rfl, this.2⟩

theorem finalPre?_eq_some {chain : Chain} {closed : Option Chain} {p : Plan}
    (h : finalPre? chain closed = some p) :
    p.dump.kind = .pre ∧ p.base = chain.latest? ∧
      p.dump.sequence.toNat = lastSequence chain closed + 1 := by
  rw [finalPre?] at h
  rw [← base?_position chain closed, lastSequence, checkpointBase]
  cases stands : position chain closed with
  | within latest =>
      rw [stands] at h
      obtain ⟨d, hd, rfl⟩ := Option.map_eq_some_iff.1 h
      have := Dump.nextPre?_eq_some hd
      exact ⟨this.1, rfl, this.2.1⟩
  | after closing =>
      rw [stands] at h
      obtain ⟨d, hd, rfl⟩ := Option.map_eq_some_iff.1 h
      have := Dump.nextInNewChain?_eq_some hd
      exact ⟨this.1, rfl, this.2.1⟩
  | fresh =>
      rw [stands] at h
      obtain ⟨d, hd, rfl⟩ := Option.map_eq_some_iff.1 h
      have := Dump.nextPre?_eq_some hd
      exact ⟨this.1, rfl, this.2.1⟩

end Cadence

end LiveMigration
