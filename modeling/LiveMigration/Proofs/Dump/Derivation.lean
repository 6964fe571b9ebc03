import LiveMigration.Proofs.Cadence.Numbers
import Mathlib.Data.List.Chain
import Mathlib.Logic.Function.Iterate

/-!
Dumps derived one after another. Every step takes the next number; it goes one further from the
last full dump or is a full dump itself, and only the end of the numbers stops it. With a fixed
period the offset counts the steps since the last multiple of it.
-/

namespace LiveMigration.Dump

/-- A step from one dump to the next. -/
inductive Derivation
  | next (freq : UInt64)
  | pre
  | full
  deriving DecidableEq, Repr

def Derivation.apply? : Derivation → Dump → Option Dump
  | next freq => next? freq
  | pre => nextPre?
  | full => nextFull?

/-- A dump and those that are derived from it, each from the one before. -/
def derived? (d : Dump) : List Derivation → Option (List Dump)
  | [] => some [d]
  | step :: steps => do
    let e ← step.apply? d
    let rest ← derived? e steps
    return d :: rest

/-- What every step keeps to. -/
structure StepsTo (d e : Dump) : Prop where
  sequence : e.sequence.toNat = d.sequence.toNat + 1
  offset : e.offset.toNat = if e.isFull then 0 else d.offset.toNat + 1

/-! ## One step -/

variable {d e : Dump} {freq : UInt64}

theorem stepsTo_nextPre? (h : d.nextPre? = some e) : StepsTo d e := by
  obtain ⟨kind, sequence, offset⟩ := nextPre?_eq_some h
  refine ⟨sequence, ?_⟩
  rw [offset, if_neg (by simp [isFull, kind])]

theorem stepsTo_nextFull? (h : d.nextFull? = some e) : StepsTo d e := by
  obtain ⟨kind, sequence, offset⟩ := nextFull?_eq_some h
  refine ⟨sequence, ?_⟩
  rw [offset, if_pos (by simp [isFull, kind])]
  rfl

theorem stepsTo_next? (h : d.next? freq = some e) : StepsTo d e := by
  unfold next? at h
  split at h
  · exact stepsTo_nextPre? h
  · exact stepsTo_nextFull? h

theorem Derivation.stepsTo {step : Derivation} (h : step.apply? d = some e) : StepsTo d e := by
  cases step with
  | next freq => exact stepsTo_next? h
  | pre => exact stepsTo_nextPre? h
  | full => exact stepsTo_nextFull? h

/-- A dump is at most as far from the last full dump as its number says. -/
theorem StepsTo.offset_le (h : StepsTo d e) (le : d.offset.toNat ≤ d.sequence.toNat) :
    e.offset.toNat ≤ e.sequence.toNat := by
  rw [h.offset, h.sequence]
  split <;> omega

/-- As long as there is a number left there is a next dump. -/
theorem Derivation.exists_apply?_iff (step : Derivation)
    (le : d.offset.toNat ≤ d.sequence.toNat) :
    (∃ e, step.apply? d = some e) ↔ d.sequence.toNat + 1 < UInt64.size := by
  constructor
  · rintro ⟨e, h⟩
    rw [← (stepsTo h).sequence]
    exact e.sequence.toNat_lt_size
  · intro room
    refine Option.ne_none_iff_exists'.1 fun none => Nat.not_le.2 room ?_
    cases step with
    | next freq => exact next?_eq_none_iff.1 none
    | pre => exact (nextPre?_eq_none_iff (by omega)).1 none
    | full => exact nextFull?_eq_none_iff.1 none

/-! ## One step after another -/

theorem derived?_cons_eq_some_iff {step : Derivation} {steps : List Derivation} {ds : List Dump} :
    derived? d (step :: steps) = some ds ↔ ∃ e rest, step.apply? d = some e ∧
      derived? e steps = some rest ∧ ds = d :: rest := by
  constructor
  · intro h
    obtain ⟨e, applied, h⟩ := Option.bind_eq_some_iff.1 h
    obtain ⟨rest, derived, h⟩ := Option.bind_eq_some_iff.1 h
    exact ⟨e, rest, applied, derived, (Option.some.inj h).symm⟩
  · rintro ⟨e, rest, applied, derived, rfl⟩
    exact Option.bind_eq_some_iff.2 ⟨e, applied, Option.bind_eq_some_iff.2 ⟨rest, derived, rfl⟩⟩

theorem derived?_eq_some {steps : List Derivation} {ds : List Dump}
    (h : derived? d steps = some ds) :
    ∃ rest, ds = d :: rest ∧ rest.length = steps.length ∧ (d :: rest).IsChain StepsTo := by
  induction steps generalizing d ds with
  | nil =>
      cases h
      exact ⟨[], rfl, rfl, .singleton d⟩
  | cons step steps ih =>
      obtain ⟨e, behind, applied, derived, rfl⟩ := derived?_cons_eq_some_iff.1 h
      obtain ⟨rest, rfl, length, chain⟩ := ih derived
      exact ⟨e :: rest, rfl, congrArg Nat.succ length,
        chain.cons_cons (Derivation.stepsTo applied)⟩

/-- The steps can be taken exactly if there are numbers for all of them. -/
theorem exists_derived?_iff {steps : List Derivation} (le : d.offset.toNat ≤ d.sequence.toNat) :
    (∃ ds, derived? d steps = some ds) ↔ d.sequence.toNat + steps.length < UInt64.size := by
  induction steps generalizing d with
  | nil => exact iff_of_true ⟨[d], rfl⟩ d.sequence.toNat_lt_size
  | cons step steps ih =>
      rw [List.length_cons]
      constructor
      · rintro ⟨ds, h⟩
        obtain ⟨e, rest, applied, derived, -⟩ := derived?_cons_eq_some_iff.1 h
        have one := Derivation.stepsTo applied
        have room := (ih (one.offset_le le)).1 ⟨rest, derived⟩
        rw [one.sequence] at room
        omega
      · intro room
        obtain ⟨e, applied⟩ := (step.exists_apply?_iff le).2 (by omega)
        have one := Derivation.stepsTo applied
        obtain ⟨rest, derived⟩ := (ih (one.offset_le le)).2 (by
          rw [one.sequence]
          omega)
        exact ⟨d :: rest, derived?_cons_eq_some_iff.2 ⟨e, rest, applied, derived, rfl⟩⟩

/-! ## Steps of one period -/

/-- The dump that is reached from the origin by so many steps of one period. -/
structure IsNth (freq : UInt64) (n : Nat) (d : Dump) : Prop where
  sequence : d.sequence.toNat = n
  offset : d.offset.toNat = n % freq.toNat
  kind : 1 ≤ n → d.kind = if freq.toNat ∣ n then .full else .pre

theorem isNth_first (freq : UInt64) : IsNth freq 0 first :=
  ⟨rfl, (Nat.zero_mod freq.toNat).symm, fun h => absurd h (by decide)⟩

/-- A step of the period wraps the offset around exactly where it makes a full dump. -/
theorem IsNth.next (positive : 1 ≤ freq.toNat) {n : Nat} (nth : IsNth freq n d)
    (h : d.next? freq = some e) : IsNth freq (n + 1) e := by
  have one := stepsTo_next? h
  have step := offset_next? h
  have below : n % freq.toNat < freq.toNat := Nat.mod_lt _ positive
  have wrap : (n + 1) % freq.toNat = (n % freq.toNat + 1) % freq.toNat :=
    (Nat.mod_add_mod n freq.toNat 1).symm
  have sequence : e.sequence.toNat = n + 1 := by rw [one.sequence, nth.sequence]
  rw [nth.offset] at step
  split at step
  · rename_i inside
    rw [Nat.mod_eq_of_lt inside] at wrap
    refine ⟨sequence, by rw [step.2, wrap], fun _ => ?_⟩
    rw [step.1, if_neg]
    intro dvd
    have := Nat.mod_eq_zero_of_dvd dvd
    omega
  · rename_i outside
    rw [show n % freq.toNat + 1 = freq.toNat by omega, Nat.mod_self] at wrap
    refine ⟨sequence, ?_, fun _ => ?_⟩
    · rw [one.offset, if_pos (by simp [isFull, step]), wrap]
    · rw [step, if_pos (Nat.dvd_of_mod_eq_zero wrap)]

theorem isNth_iterate (positive : 1 ≤ freq.toNat) {n : Nat}
    (h : (· >>= next? freq)^[n] (some first) = some d) : IsNth freq n d := by
  induction n generalizing d with
  | zero =>
      cases h
      exact isNth_first freq
  | succ n ih =>
      rw [Function.iterate_succ_apply'] at h
      obtain ⟨before, reached, step⟩ := Option.bind_eq_some_iff.1 h
      exact (ih reached).next positive step

theorem exists_iterate_iff (positive : 1 ≤ freq.toNat) (n : Nat) :
    (∃ d, (· >>= next? freq)^[n] (some first) = some d) ↔ n < UInt64.size := by
  induction n with
  | zero => exact iff_of_true ⟨first, rfl⟩ (by decide)
  | succ n ih =>
      rw [Function.iterate_succ_apply']
      constructor
      · rintro ⟨d, h⟩
        obtain ⟨before, reached, step⟩ := Option.bind_eq_some_iff.1 h
        have nth := (isNth_iterate positive reached).next positive step
        rw [← nth.sequence]
        exact d.sequence.toNat_lt_size
      · intro room
        obtain ⟨before, reached⟩ := ih.2 (by omega)
        have nth := isNth_iterate positive reached
        have le : before.offset.toNat ≤ before.sequence.toNat := by
          rw [nth.offset, nth.sequence]
          exact Nat.mod_le ..
        obtain ⟨d, step⟩ := ((Derivation.next freq).exists_apply?_iff le).2 (by
          rwa [nth.sequence])
        exact ⟨d, Option.bind_eq_some_iff.2 ⟨before, reached, step⟩⟩

/-- From the origin every number is reached by steps of one period, and nothing behind the last
one. The dump with some number is that far from the last multiple of the period, and it is a full
dump exactly if its number is a multiple itself. -/
theorem derivation_period (positive : 1 ≤ freq.toNat) (n : Nat) :
    (n < UInt64.size → ∃ d, (· >>= next? freq)^[n] (some first) = some d ∧
      d.sequence.toNat = n ∧ d.offset.toNat = n % freq.toNat ∧
      (1 ≤ n → d.kind = if freq.toNat ∣ n then .full else .pre)) ∧
    (UInt64.size ≤ n → (· >>= next? freq)^[n] (some first) = none) := by
  refine ⟨fun room => ?_, fun beyond => ?_⟩
  · obtain ⟨d, reached⟩ := (exists_iterate_iff positive n).2 room
    have nth := isNth_iterate positive reached
    exact ⟨d, reached, nth.sequence, nth.offset, nth.kind⟩
  · refine Option.eq_none_iff_forall_ne_some.2 fun d reached => ?_
    exact Nat.not_lt.2 beyond ((exists_iterate_iff positive n).1 ⟨d, reached⟩)

/-- The longest period there is comes to its first full dump with the last number. -/
theorem derivation_period_sample :
    1 ≤ (18446744073709551615 : UInt64).toNat ∧
      ∃ d, (· >>= next? 18446744073709551615)^[18446744073709551615] (some first) = some d ∧
        d.sequence.toNat = 18446744073709551615 ∧ d.offset.toNat = 0 ∧ d.kind = .full := by
  have positive : 1 ≤ (18446744073709551615 : UInt64).toNat := by decide
  obtain ⟨d, reached, sequence, offset, kind⟩ :=
    (derivation_period positive 18446744073709551615).1 (by decide)
  refine ⟨positive, d, reached, sequence, offset, ?_⟩
  rw [kind (by decide), if_pos (by decide)]

end LiveMigration.Dump
