import LiveMigration.Digest.Hex

/-!
Bytes in base sixteen are read as they were written.
-/

namespace LiveMigration.Hex

theorem value?_digit {n : Nat} (h : n < 16) : value? (digit n) = some n := by
  have all : ∀ n : Fin 16, value? (digit n) = some n.val := by decide
  exact all ⟨n, h⟩

theorem decodeChars_cons (b : UInt8) (rest : List Char) :
    decodeChars (digit (b.toNat / 16) :: digit (b.toNat % 16) :: rest) =
      (decodeChars rest).map (b :: ·) := by
  have high : b.toNat / 16 < 16 := Nat.div_lt_of_lt_mul b.toNat_lt
  have low : b.toNat % 16 < 16 := Nat.mod_lt _ (by decide)
  rw [decodeChars, value?_digit high, value?_digit low]
  dsimp only [bind, Option.bind]
  rw [Nat.div_add_mod', UInt8.ofNat_toNat]
  cases decodeChars rest <;> rfl

theorem decode?_encode (bytes : Bytes) : decode? (encode bytes) = some bytes := by
  rw [decode?, encode, String.toList_ofList]
  induction bytes with
  | nil => rfl
  | cons b bytes ih =>
      rw [List.flatMap_cons, List.cons_append, List.cons_append, List.nil_append,
        decodeChars_cons, ih]
      rfl

end LiveMigration.Hex
