import LiveMigration.Json.Writer
import LiveMigration.Proofs.Dump.Name

/-!
Reading the tokens of a value that was written. Strings and numbers come back as they were,
and the reader ends every value between two tokens, as long as the value is followed by what
may stand behind a value.
-/

namespace LiveMigration.Json

def isDelimiter (b : UInt8) : Bool := b == 0x2C || b == 0x5D || b == 0x7D

/-- What may stand behind a value: nothing, or a delimiter. -/
def Delimited (rest : Bytes) : Prop := ∀ b ∈ rest.head?, isDelimiter b = true

theorem delimited_nil : Delimited [] := nofun

theorem delimited_cons {b : UInt8} (h : isDelimiter b = true) (rest : Bytes) :
    Delimited (b :: rest) := by
  rintro _ ⟨⟩
  exact h

/-! ## Strings -/

theorem spellBackwards_control : ∀ n < 32, spellBackwards n = [UInt8.ofNat n] := by
  decide +kernel

theorem hexDigit?_hexByte : ∀ n < 16, hexDigit? (hexByte n) = some n := by
  decide

theorem tokensFrom_escapeByte (b : UInt8) (spelled rest : Bytes) :
    tokensFrom (.string spelled none true) (escapeByte b ++ rest) =
      tokensFrom (.string (b :: spelled) none true) rest := by
  unfold escapeByte
  split
  · subst_vars; rfl
  split
  · subst_vars; rfl
  split
  · subst_vars; rfl
  split
  · subst_vars; rfl
  split
  · subst_vars; rfl
  split
  · subst_vars; rfl
  split
  · subst_vars; rfl
  split
  · rename_i control
    have small : b.toNat < 32 := by simpa [UInt8.lt_iff_toNat_lt] using control
    have high := hexDigit?_hexByte (b.toNat / 16) (by omega)
    have low := hexDigit?_hexByte (b.toNat % 16) (by omega)
    have zero : hexDigit? 0x30 = some 0 := rfl
    have unit : b.toNat / 16 * 16 + b.toNat % 16 = b.toNat := by omega
    have taken : takeUnit spelled none true b.toNat = .string (b :: spelled) none true := by
      unfold takeUnit
      rw [if_neg (by omega), if_neg (by omega), spellBackwards_control b.toNat small,
        UInt8.ofNat_toNat]
      rfl
    simp [tokensFrom, step, zero, high, low, unit, taken]
  · rename_i quote backslash _ _ _ _ _ control
    simp [tokensFrom, step, quote, backslash, control]

theorem tokensFrom_string (s spelled rest : Bytes) :
    tokensFrom (.string spelled none true) (s.flatMap escapeByte ++ 0x22 :: rest) =
      .string (Bytes.text? (spelled.reverse ++ s)) :: tokensFrom .between rest := by
  induction s generalizing spelled with
  | nil => simp [tokensFrom, step]
  | cons b s ih =>
      rw [List.flatMap_cons, List.append_assoc, tokensFrom_escapeByte, ih, List.reverse_cons,
        List.append_assoc]
      rfl

theorem tokensFrom_quote (s : String) (rest : Bytes) :
    tokensFrom .between (quote (Bytes.ofText s) ++ rest) =
      .string (some s) :: tokensFrom .between rest := by
  have h := tokensFrom_string (Bytes.ofText s) [] rest
  rw [List.reverse_nil, List.nil_append, Bytes.text?_ofText] at h
  unfold quote
  rw [List.append_assoc]
  exact h

/-! ## Numbers -/

theorem digit?_digitByte : ∀ d < 10, digit? (digitByte (Nat.digitChar d)) = some d := by
  decide

theorem beginToken_digitByte : ∀ d < 10, 0 < d → beginToken (digitByte (Nat.digitChar d)) =
    ([], .number .whole ⟨false, d, 0, false, 0, true⟩) := by
  decide

/-- A number that is complete. -/
theorem tokensFrom_delimited {rest : Bytes} (h : Delimited rest) {part : NumberPart}
    (hp : part = .zero ∨ part = .whole) (x : Numeral) :
    tokensFrom (.number part x) rest = .number x.number :: tokensFrom .between rest := by
  cases rest with
  | nil => obtain rfl | rfl := hp <;> rfl
  | cons b rest =>
      have delimiter := h b rfl
      unfold isDelimiter at delimiter
      simp only [Bool.or_eq_true, beq_iff_eq] at delimiter
      obtain rfl | rfl := hp <;> obtain (rfl | rfl) | rfl := delimiter <;> rfl

theorem number_natural {n : Nat} (h : n < UInt64.size) :
    Numeral.number ⟨false, n, 0, false, 0, true⟩ = .natural n := by
  unfold Numeral.number
  simp [h]

theorem tokensFrom_digits {ds : List Char} {rest : Bytes} (hd : ∀ c ∈ ds, c.isDigit = true)
    (h : Delimited rest) (n : Nat) :
    tokensFrom (.number .whole ⟨false, n, 0, false, 0, true⟩) (ds.map digitByte ++ rest) =
      .number (Numeral.number ⟨false, Nat.ofDigitChars 10 ds n, 0, false, 0, true⟩) ::
        tokensFrom .between rest := by
  induction ds generalizing n with
  | nil => exact tokensFrom_delimited h (.inr rfl) _
  | cons c ds ih =>
      obtain ⟨hc, small⟩ := Dump.digitChar_toNat_sub (hd c (by simp))
      have digit := digit?_digitByte _ small
      rw [hc] at digit
      have rest := ih (fun c h => hd c (by simp [h])) (10 * n + (c.toNat - '0'.toNat))
      rw [Nat.ofDigitChars_cons, ← rest]
      simp [tokensFrom, step, continueNumber, digit, Nat.mul_comm]

theorem tokensFrom_writeNatural {n : Nat} (hn : n < UInt64.size) {rest : Bytes}
    (h : Delimited rest) :
    tokensFrom .between (writeNatural n ++ rest) =
      .number (.natural n) :: tokensFrom .between rest := by
  rcases Nat.eq_zero_or_pos n with rfl | positive
  · exact tokensFrom_delimited h (.inl rfl) ⟨false, 0, 0, false, 0, true⟩
  · have all : ∀ c ∈ Nat.toDigits 10 n, c.isDigit = true :=
      fun c hc => Nat.isDigit_of_mem_toDigits (by decide) (by decide) hc
    have value : Nat.ofDigitChars 10 (Nat.toDigits 10 n) 0 = n := Nat.ofDigitChars_ten_toDigits
    have head := Dump.head?_toDigits_ne_zero positive
    unfold writeNatural
    cases hds : Nat.toDigits 10 n with
    | nil => exact absurd hds Nat.toDigits_ne_nil
    | cons c ds =>
        rw [hds] at all value head
        obtain ⟨hc, small⟩ := Dump.digitChar_toNat_sub (all c (by simp))
        have nonzero : 0 < c.toNat - '0'.toNat := by
          apply Nat.pos_of_ne_zero
          intro zero
          rw [zero] at hc
          exact head (by rw [← hc]; rfl)
        have begin := beginToken_digitByte _ small nonzero
        rw [hc] at begin
        rw [Nat.ofDigitChars_cons, Nat.mul_zero, Nat.zero_add] at value
        have others : ∀ x ∈ ds, x.isDigit = true := fun x hx => all x (by simp [hx])
        have digits := tokensFrom_digits others h (c.toNat - '0'.toNat)
        rw [value, number_natural hn] at digits
        rw [← digits]
        simp [tokensFrom, step, begin]

end LiveMigration.Json
