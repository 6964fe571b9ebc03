import LiveMigration.Proofs.Json.RoundTrip
import LiveMigration.Proofs.Text.Bytes

/-!
What is written is text in a single line. Every byte that is escaped is ASCII, and so are the
escapes, so that no other character is taken apart; and every control character is escaped.
-/

namespace LiveMigration.Json

open Bytes (IsText isText_ascii isText_single isText_ofText)

theorem escapeByte_ascii : ∀ n < 128, ∀ x ∈ escapeByte (UInt8.ofNat n), x.toNat < 128 := by
  decide +kernel

theorem escapeByte_of_le {b : UInt8} (h : 128 ≤ b.toNat) : escapeByte b = [b] := by
  have ne (x : UInt8) (hx : x.toNat < 128) : b ≠ x := by
    rintro rfl
    omega
  have ge : ¬ b < 0x20 := by
    rw [UInt8.lt_iff_toNat_lt]
    exact fun lt => absurd lt (by simp; omega)
  unfold escapeByte
  rw [if_neg (ne 0x22 (by decide)), if_neg (ne 0x5C (by decide)), if_neg (ne 0x08 (by decide)),
    if_neg (ne 0x0C (by decide)), if_neg (ne 0x0A (by decide)), if_neg (ne 0x0D (by decide)),
    if_neg (ne 0x09 (by decide)), if_neg ge]

theorem isText_escaped (cs : List Char) :
    IsText ((cs.flatMap String.utf8EncodeChar).flatMap escapeByte) := by
  induction cs with
  | nil => exact isText_ascii nofun
  | cons c cs ih =>
      rw [List.flatMap_cons, List.flatMap_append]
      refine IsText.append ?_ ih
      by_cases small : c.toNat < 128
      · rw [Bytes.utf8EncodeChar_ascii small]
        refine isText_ascii ?_
        simpa using escapeByte_ascii c.toNat small
      · have same : (String.utf8EncodeChar c).flatMap escapeByte = String.utf8EncodeChar c := by
          have big := Bytes.le_of_mem_utf8EncodeChar (c := c) (by omega)
          generalize String.utf8EncodeChar c = bs at big
          induction bs with
          | nil => rfl
          | cons b bs ih =>
              rw [List.flatMap_cons, escapeByte_of_le (big b (by simp)),
                ih fun x hx => big x (by simp [hx])]
              rfl
        rw [same]
        refine ⟨String.ofList [c], ?_⟩
        rw [Bytes.ofText_eq]
        simp

theorem isText_quote (s : String) : IsText (quote (Bytes.ofText s)) := by
  unfold quote
  rw [Bytes.ofText_eq]
  have front : IsText [0x22] := isText_single (by decide)
  exact front.append ((isText_escaped s.toList).append front)

theorem escapeByte_visible : ∀ n < 256, ∀ x ∈ escapeByte (UInt8.ofNat n), 0x20 ≤ x.toNat := by
  decide +kernel

/-- Byte strings without control characters, line ends among them. -/
def IsVisible (b : Bytes) : Prop := ∀ x ∈ b, 0x20 ≤ x.toNat

theorem isVisible_quote (s : String) : IsVisible (quote (Bytes.ofText s)) := by
  intro x hx
  simp only [quote, List.cons_append, List.mem_cons, List.mem_append, List.mem_flatMap,
    List.not_mem_nil, or_false] at hx
  rcases hx with rfl | ⟨b, _, hx⟩ | rfl
  · decide
  · rw [← UInt8.ofNat_toNat (x := b)] at hx
    exact escapeByte_visible b.toNat b.toNat_lt x hx
  · decide

/-! ## Putting the pieces together -/

/-- What holds of byte strings that are put together if it holds of the pieces, which are
visible ASCII characters and quoted texts. -/
structure HoldsPiecewise (P : Bytes → Prop) : Prop where
  empty : P []
  append {a b : Bytes} : P a → P b → P (a ++ b)
  mark {x : UInt8} : 0x20 ≤ x.toNat → x.toNat < 128 → P [x]
  quoted (s : String) : P (quote (Bytes.ofText s))

theorem isText_piecewise : HoldsPiecewise IsText where
  empty := isText_ascii nofun
  append := IsText.append
  mark _ small := isText_single small
  quoted := isText_quote

theorem isVisible_piecewise : HoldsPiecewise IsVisible where
  empty := nofun
  append ha hb x hx := (List.mem_append.1 hx).elim (ha x) (hb x)
  mark large _ x hx := by
    rw [List.mem_singleton.1 hx]
    exact large
  quoted := isVisible_quote

namespace HoldsPiecewise

variable {P : Bytes → Prop}

theorem marks (pieces : HoldsPiecewise P) {b : Bytes}
    (h : ∀ x ∈ b, 0x20 ≤ x.toNat ∧ x.toNat < 128) : P b := by
  induction b with
  | nil => exact pieces.empty
  | cons x b ih =>
      obtain ⟨large, small⟩ := h x (by simp)
      exact pieces.append (pieces.mark large small) (ih fun y hy => h y (by simp [hy]))

theorem numeral (pieces : HoldsPiecewise P) (n : Nat) : P (writeNatural n) := by
  refine pieces.marks ?_
  intro b hb
  obtain ⟨c, hc, rfl⟩ := List.mem_map.1 hb
  obtain ⟨hd, small⟩ := Dump.digitChar_toNat_sub
    (Nat.isDigit_of_mem_toDigits (by decide) (by decide) hc)
  have all : ∀ d < 10, 0x20 ≤ (digitByte (Nat.digitChar d)).toNat ∧
      (digitByte (Nat.digitChar d)).toNat < 128 := by decide
  rw [← hd]
  exact all _ small

mutual

theorem written (pieces : HoldsPiecewise P) (t : Tree) (plain : t.isPlain = true) :
    P (write t) := by
  match t with
  | .null => exact pieces.marks (by decide +kernel)
  | .bool true => exact pieces.marks (by decide +kernel)
  | .bool false => exact pieces.marks (by decide +kernel)
  | .number (.natural n) => exact pieces.numeral n
  | .string (some s) => exact pieces.quoted s
  | .array items whole =>
      rw [Tree.isPlain, Bool.and_eq_true] at plain
      have open' : P [0x5B] := pieces.mark (by decide) (by decide)
      have close : P [0x5D] := pieces.mark (by decide) (by decide)
      rw [write]
      exact pieces.append (pieces.append open' (pieces.writtenItems items plain.2)) close
  | .object members whole =>
      rw [Tree.isPlain, Bool.and_eq_true] at plain
      have open' : P [0x7B] := pieces.mark (by decide) (by decide)
      have close : P [0x7D] := pieces.mark (by decide) (by decide)
      rw [write]
      exact pieces.append (pieces.append open' (pieces.writtenMembers members plain.2)) close

theorem writtenItems (pieces : HoldsPiecewise P) (items : List Tree)
    (plain : plainItems items = true) : P (writeItems items) := by
  match items with
  | [] => exact pieces.empty
  | [v] =>
      rw [plainItems, Bool.and_eq_true] at plain
      exact pieces.written v plain.1
  | v :: w :: more =>
      rw [plainItems, Bool.and_eq_true] at plain
      have comma : P [0x2C] := pieces.mark (by decide) (by decide)
      rw [writeItems_cons_cons]
      exact pieces.append (pieces.written v plain.1)
        (pieces.append comma (pieces.writtenItems (w :: more) plain.2))

theorem writtenMembers (pieces : HoldsPiecewise P) (members : List (Option String × Tree))
    (plain : plainMembers members = true) : P (writeMembers members) := by
  match members with
  | [] => exact pieces.empty
  | [(key, v)] =>
      rw [plainMembers, Bool.and_eq_true, Bool.and_eq_true] at plain
      have colon : P [0x3A] := pieces.mark (by decide) (by decide)
      rw [writeMembers]
      exact pieces.append (pieces.quoted _) (pieces.append colon (pieces.written v plain.1.2))
  | (key, v) :: w :: more =>
      rw [plainMembers, Bool.and_eq_true, Bool.and_eq_true] at plain
      have colon : P [0x3A] := pieces.mark (by decide) (by decide)
      have comma : P [0x2C] := pieces.mark (by decide) (by decide)
      have first := pieces.append (pieces.written v plain.1.2)
        (pieces.append comma (pieces.writtenMembers (w :: more) plain.2))
      rw [writeMembers_cons_cons]
      exact pieces.append (pieces.quoted _) (pieces.append colon first)

end

end HoldsPiecewise

theorem isText_write (t : Tree) (plain : t.isPlain = true) : IsText (write t) :=
  isText_piecewise.written t plain

theorem isVisible_write (t : Tree) (plain : t.isPlain = true) : IsVisible (write t) :=
  isVisible_piecewise.written t plain

end LiveMigration.Json
