import LiveMigration.Dump.Name

/-!
Names and dumps determine each other. A number has one numeral, without a zero in front, so a text
that is read as a dump is the name of this dump and of no other. Which texts are read can be told
without reading them.
-/

namespace LiveMigration.Dump

theorem digitChar_toNat_sub {c : Char} (h : c.isDigit = true) :
    Nat.digitChar (c.toNat - '0'.toNat) = c ∧ c.toNat - '0'.toNat < 10 := by
  simp only [Char.isDigit, Bool.and_eq_true, decide_eq_true_eq] at h
  obtain ⟨low, high⟩ := h
  have hlow : 48 ≤ c.toNat := by simpa [UInt32.le_iff_toNat_le] using low
  have hhigh : c.toNat ≤ 57 := by simpa [UInt32.le_iff_toNat_le] using high
  have all : ∀ i : Fin 10, Nat.digitChar i.val = Char.ofNat (48 + i.val) := by decide
  have hc : Char.ofNat (48 + (c.toNat - 48)) = c := by
    rw [show 48 + (c.toNat - 48) = c.toNat by omega, Char.ofNat_toNat]
  rw [show '0'.toNat = 48 from rfl]
  refine ⟨?_, by omega⟩
  exact (all ⟨c.toNat - 48, by omega⟩).trans hc

/-- Digits that are read behind a positive number go on with its own. -/
theorem toDigits_append_digits (digits : List Char) (n : Nat) (hn : 0 < n)
    (hd : ∀ c ∈ digits, c.isDigit = true) :
    Nat.toDigits 10 n ++ digits = Nat.toDigits 10 (Nat.ofDigitChars 10 digits n) := by
  induction digits generalizing n with
  | nil => simp
  | cons c digits ih =>
      obtain ⟨hc, hlt⟩ := digitChar_toNat_sub (hd c (by simp))
      have hnext := Nat.toDigits_append_toDigits (b := 10) (by decide) hn hlt
      rw [Nat.toDigits_of_lt_base hlt, hc] at hnext
      rw [Nat.ofDigitChars_cons, ← ih _ (by omega) (fun c h => hd c (by simp [h])), ← hnext]
      simp

/-! ## Numerals -/

/-- Decimal digits, with no zero in front of others. -/
structure IsNumeral (digits : List Char) : Prop where
  nonempty : digits ≠ []
  decimal : ∀ c ∈ digits, c.isDigit = true
  unpadded : digits.head? = some '0' → digits = ['0']

/-- A numeral is made of the digits of the number that it is read as. -/
theorem IsNumeral.toDigits_eq {digits : List Char} (h : IsNumeral digits) :
    Nat.toDigits 10 (Nat.ofDigitChars 10 digits 0) = digits := by
  cases digits with
  | nil => exact absurd rfl h.nonempty
  | cons c digits =>
      obtain ⟨hc, hlt⟩ := digitChar_toNat_sub (h.decimal c (by simp))
      rw [Nat.ofDigitChars_cons, Nat.mul_zero, Nat.zero_add]
      by_cases hnil : digits = []
      · rw [hnil, Nat.ofDigitChars_nil, Nat.toDigits_of_lt_base hlt, hc]
      · have hpos : 0 < c.toNat - '0'.toNat := by
          apply Nat.pos_of_ne_zero
          intro h0
          rw [h0] at hc
          exact hnil (List.cons.inj (h.unpadded (congrArg some hc.symm))).2
        rw [← toDigits_append_digits digits _ hpos (fun x hx => h.decimal x (by simp [hx])),
          Nat.toDigits_of_lt_base hlt, hc]
        rfl

theorem head?_toDigits_ne_zero {n : Nat} (hn : 0 < n) : (Nat.toDigits 10 n).head? ≠ some '0' := by
  induction n using Nat.strongRecOn with
  | ind n ih =>
      by_cases hlt : n < 10
      · have all : ∀ i : Fin 10, 0 < i.val → Nat.digitChar i.val ≠ '0' := by decide
        rw [Nat.toDigits_of_lt_base hlt]
        simpa using all ⟨n, hlt⟩ hn
      · rw [Nat.toDigits_of_base_le (by decide) (by omega), List.head?_append]
        have hrec := ih (n / 10) (by omega) (by omega)
        cases hds : Nat.toDigits 10 (n / 10) with
        | nil => exact absurd hds Nat.toDigits_ne_nil
        | cons c rest =>
            rw [hds] at hrec
            simpa using hrec

theorem isNumeral_toDigits (n : Nat) : IsNumeral (Nat.toDigits 10 n) := by
  refine ⟨Nat.toDigits_ne_nil, ?_, fun zero => ?_⟩
  · exact fun c hc => Nat.isDigit_of_mem_toDigits (by decide) (by decide) hc
  · rcases Nat.eq_zero_or_pos n with rfl | positive
    · exact Nat.toDigits_zero 10
    · exact absurd zero (head?_toDigits_ne_zero positive)

theorem unpadded_iff {digits : List Char} :
    ¬ (1 < digits.length ∧ digits.head? = some '0') ↔
      (digits.head? = some '0' → digits = ['0']) := by
  cases digits with
  | nil => simp
  | cons c digits => cases digits <;> simp

/-- A number is read from its numeral and from nothing else. -/
theorem sequenceOfDigits_eq_ok_iff {digits : List Char} {n : UInt64} :
    sequenceOfDigits digits = .ok n ↔
      IsNumeral digits ∧ Nat.ofDigitChars 10 digits 0 = n.toNat := by
  unfold sequenceOfDigits
  constructor
  · intro h
    split at h
    · cases h
    rename_i plain
    split at h
    · cases h
    rename_i unpadded
    dsimp only at h
    split at h
    · rename_i small
      cases h
      obtain ⟨nonempty, decimal⟩ := not_or.1 plain
      refine ⟨⟨by simpa using nonempty, by simpa using decimal, unpadded_iff.1 unpadded⟩, ?_⟩
      rw [UInt64.toNat_ofNat_of_lt' small]
    · cases h
  · rintro ⟨numeral, value⟩
    have plain : ¬ (digits.isEmpty ∨ ¬ digits.all Char.isDigit) :=
      not_or.2 ⟨by simpa using numeral.nonempty, by simpa using numeral.decimal⟩
    rw [if_neg plain, if_neg (unpadded_iff.2 numeral.unpadded)]
    dsimp only
    rw [value, if_pos n.toNat_lt_size, UInt64.ofNat_toNat]

theorem sequenceOfDigits_toDigits (n : UInt64) :
    sequenceOfDigits (Nat.toDigits 10 n.toNat) = .ok n :=
  sequenceOfDigits_eq_ok_iff.2 ⟨isNumeral_toDigits _, Nat.ofDigitChars_ten_toDigits⟩

theorem toDigits_of_sequenceOfDigits {digits : List Char} {n : UInt64}
    (h : sequenceOfDigits digits = .ok n) : Nat.toDigits 10 n.toNat = digits := by
  obtain ⟨numeral, value⟩ := sequenceOfDigits_eq_ok_iff.1 h
  rw [← value, numeral.toDigits_eq]

/-! ## Names -/

theorem toList_name (d : Dump) :
    d.name.toList = d.kind.letter :: Nat.toDigits 10 d.sequence.toNat := by
  simp [name, Nat.toString_eq_repr]

theorem bounds_of_mem_name {d : Dump} {c : Char} (mem : c ∈ d.name.toList) :
    48 ≤ c.toNat ∧ c.toNat < 128 := by
  rw [toList_name] at mem
  rcases List.mem_cons.1 mem with rfl | mem
  · cases d.kind <;> decide
  · have digit := Nat.isDigit_of_mem_toDigits (by decide) (by decide) mem
    simp only [Char.isDigit, Bool.and_eq_true, decide_eq_true_eq] at digit
    have low : 48 ≤ c.toNat := by simpa [UInt32.le_iff_toNat_le] using digit.1
    have high : c.toNat ≤ 57 := by simpa [UInt32.le_iff_toNat_le] using digit.2
    omega

/-- A name is read as its dump; the offset is not part of it. -/
theorem ofName_name (d : Dump) : ofName d.name = .ok { d with offset := 0 } := by
  rw [ofName_eq_ok_iff, toList_name]
  simp [ofChars, Kind.ofLetter?_letter, sequenceOfDigits_toDigits, Except.map]

/-- The names of dumps tell everything about them but their offsets. -/
theorem ofNames_names (ds : List Dump) :
    ofNames (ds.map name) = .ok (ds.map fun d => { d with offset := 0 }) := by
  induction ds with
  | nil => rfl
  | cons d ds ih =>
      rw [List.map_cons, ofNames, ofName_name, ih]
      rfl

/-- What is accepted as a name is the name of the dump it is read as. -/
theorem name_of_ofName {s : String} {d : Dump} (h : ofName s = .ok d) : d.name = s := by
  rw [ofName_eq_ok_iff] at h
  apply String.toList_inj.1
  rw [toList_name]
  cases hs : s.toList with
  | nil =>
      rw [hs] at h
      cases h
  | cons c digits =>
      rw [hs] at h
      unfold ofChars at h
      cases hk : Kind.ofLetter? c with
      | none => simp [hk] at h
      | some kind =>
          cases hn : sequenceOfDigits digits with
          | error => simp [hk, hn, Except.map] at h
          | ok n =>
              simp only [hk, hn, Except.map, Except.ok.injEq] at h
              subst h
              rw [Kind.letter_of_ofLetter? hk, toDigits_of_sequenceOfDigits hn]

theorem name_inj {a b : Dump} : a.name = b.name ↔ a.Same b := by
  constructor
  · intro h
    have ha := ofName_name a
    rw [h, ofName_name b] at ha
    simp only [Except.ok.injEq, Dump.mk.injEq] at ha
    exact ⟨ha.1.symm, ha.2.1.symm⟩
  · rintro ⟨hk, hs⟩
    simp [name, hk, hs]

/-! ## The texts that are read -/

/-- The letter of a kind and a number of 64 bits. -/
def IsCanonical (s : String) : Prop :=
  ∃ (k : Kind) (digits : List Char), s.toList = k.letter :: digits ∧ IsNumeral digits ∧
    Nat.ofDigitChars 10 digits 0 < UInt64.size

theorem ofChars_letter (k : Kind) (digits : List Char) :
    ofChars (k.letter :: digits) =
      (sequenceOfDigits digits).map fun sequence => ⟨k, sequence, 0⟩ := by
  simp only [ofChars, Kind.ofLetter?_letter]

/-- What is accepted is told by the text alone. -/
theorem exists_ofName_iff {s : String} : (∃ d, ofName s = .ok d) ↔ IsCanonical s := by
  constructor
  · rintro ⟨d, h⟩
    refine ⟨d.kind, Nat.toDigits 10 d.sequence.toNat, ?_, ?_⟩
    · rw [← name_of_ofName h, toList_name]
    · obtain ⟨numeral, value⟩ := sequenceOfDigits_eq_ok_iff.1 (sequenceOfDigits_toDigits d.sequence)
      refine ⟨numeral, ?_⟩
      rw [value]
      exact d.sequence.toNat_lt_size
  · rintro ⟨k, digits, spelled, numeral, small⟩
    have number := sequenceOfDigits_eq_ok_iff.2
      ⟨numeral, (UInt64.toNat_ofNat_of_lt' small).symm⟩
    refine ⟨⟨k, .ofNat (Nat.ofDigitChars 10 digits 0), 0⟩, ofName_eq_ok_iff.2 ?_⟩
    rw [spelled, ofChars_letter, number]
    rfl

/-- The name of a dump is read as the same dump at offset zero, and a text that is read as a dump
is its name, so that two different texts are never read as the same dump. The texts that are read
at all are a letter and a number, written as numbers are. -/
theorem canonical_names :
    (∀ d : Dump, ∃ e, ofName d.name = .ok e ∧ e.Same d ∧ e.offset = 0) ∧
    (∀ (s : String) (d : Dump), ofName s = .ok d → d.name = s) ∧
    (∀ (s t : String) (a b : Dump), ofName s = .ok a → ofName t = .ok b → s ≠ t → ¬ a.Same b) ∧
    ∀ s : String, (∃ d, ofName s = .ok d) ↔ IsCanonical s := by
  refine ⟨fun d => ?_, fun s d => name_of_ofName, fun s t a b ha hb apart same => ?_,
    fun s => exists_ofName_iff⟩
  · exact ⟨_, ofName_name d, ⟨rfl, rfl⟩, rfl⟩
  · refine apart ?_
    rw [← name_of_ofName ha, ← name_of_ofName hb]
    exact name_inj.2 same

def sampleMisspellings : List String :=
  ["d18446744073709551616", "p00", "p01", "p+1", "p", "", "x1", "p1 ", "p\u0661"]

/-- The last number there is can be read, and zero, but no number behind it and nothing that is
written in another way. -/
theorem canonical_names_sample :
    (∃ d, ofName "d18446744073709551615" = .ok d ∧ d.name = "d18446744073709551615") ∧
      IsCanonical "p0" ∧ ∀ s ∈ sampleMisspellings, ¬ IsCanonical s := by
  obtain ⟨own, named, -, accepted⟩ := canonical_names
  have last : (⟨.full, 18446744073709551615, 0⟩ : Dump).name = "d18446744073709551615" := by
    decide +kernel
  have zero : (⟨.pre, 0, 0⟩ : Dump).name = "p0" := by decide +kernel
  obtain ⟨d, read, -⟩ := own ⟨.full, 18446744073709551615, 0⟩
  obtain ⟨e, read', -⟩ := own ⟨.pre, 0, 0⟩
  rw [last] at read
  rw [zero] at read'
  refine ⟨⟨d, read, named _ _ read⟩, (accepted "p0").1 ⟨e, read'⟩, fun s mem canonical => ?_⟩
  obtain ⟨d, read⟩ := (accepted s).2 canonical
  have refused : ∀ s ∈ sampleMisspellings, (ofName s).isOk = false := by decide +kernel
  have := refused s mem
  rw [read] at this
  cases this

end LiveMigration.Dump
