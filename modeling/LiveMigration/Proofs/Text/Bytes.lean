import LiveMigration.Text.Bytes

/-!
Bytes that spell a text. The form of a text is that of its characters one after another; an
ASCII character is one byte below 128, and every other one is made of bytes from 128 on.
-/

namespace LiveMigration.Bytes

theorem ofText_eq (s : String) : ofText s = s.toList.flatMap String.utf8EncodeChar := by
  have h : s.toByteArray = s.toList.utf8Encode := by
    rw [← String.toByteArray_ofList, String.ofList_toList]
  unfold ofText
  rw [show s.toUTF8 = s.toByteArray from rfl, h]
  simp [List.utf8Encode]

theorem ofText_append (s t : String) : ofText (s ++ t) = ofText s ++ ofText t := by
  rw [ofText_eq, ofText_eq, ofText_eq, String.toList_append, List.flatMap_append]

theorem utf8EncodeChar_ascii {c : Char} (h : c.toNat < 128) :
    String.utf8EncodeChar c = [UInt8.ofNat c.toNat] := by
  unfold String.utf8EncodeChar
  exact if_pos (Nat.le_of_lt_succ h)

theorem le_of_mem_utf8EncodeChar {c : Char} (h : 128 ≤ c.toNat) :
    ∀ b ∈ String.utf8EncodeChar c, 128 ≤ b.toNat := by
  have bound : c.val.toNat < 0x110000 := by
    have := c.valid
    unfold UInt32.isValidChar Nat.isValidChar at this
    omega
  have big : 128 ≤ c.val.toNat := h
  intro b hb
  unfold String.utf8EncodeChar at hb
  simp only [show ¬ c.val.toNat ≤ 0x7f by omega, if_false] at hb
  split at hb
  · simp only [List.mem_cons, List.not_mem_nil, or_false] at hb
    rcases hb with rfl | rfl <;> simp only [UInt8.toNat_ofNat'] <;> omega
  split at hb
  · simp only [List.mem_cons, List.not_mem_nil, or_false] at hb
    rcases hb with rfl | rfl | rfl <;> simp only [UInt8.toNat_ofNat'] <;> omega
  · simp only [List.mem_cons, List.not_mem_nil, or_false] at hb
    rcases hb with rfl | rfl | rfl | rfl <;> simp only [UInt8.toNat_ofNat'] <;> omega

theorem ofText_ofList_ascii {cs : List Char} (h : ∀ c ∈ cs, c.toNat < 128) :
    ofText (String.ofList cs) = cs.map fun c => UInt8.ofNat c.toNat := by
  rw [ofText_eq, String.toList_ofList]
  induction cs with
  | nil => rfl
  | cons c cs ih =>
      rw [List.flatMap_cons, utf8EncodeChar_ascii (h c (by simp)), List.map_cons,
        ih fun c hc => h c (by simp [hc])]
      rfl

/-- A byte below 128 is a character of the text. -/
theorem mem_of_mem_ofText {s : String} {b : UInt8} {c : Char} (h : b ∈ ofText s)
    (same : b.toNat = c.toNat) (small : c.toNat < 128) : c ∈ s.toList := by
  rw [ofText_eq, List.mem_flatMap] at h
  obtain ⟨x, hx, mem⟩ := h
  by_cases ascii : x.toNat < 128
  · rw [utf8EncodeChar_ascii ascii, List.mem_singleton] at mem
    have eq : x.toNat = c.toNat := by
      rw [← same, mem, UInt8.toNat_ofNat']
      omega
    rw [← Char.toNat_inj.1 eq]
    exact hx
  · have := le_of_mem_utf8EncodeChar (Nat.le_of_not_lt ascii) b mem
    omega

theorem toNat_ofNat_ascii : ∀ n < 128, (Char.ofNat n).toNat = n := by
  decide +kernel

/-- The byte strings that spell a text. -/
def IsText (b : Bytes) : Prop := ∃ s, b = ofText s

theorem isText_iff {b : Bytes} : IsText b ↔ (text? b).isSome = true := by
  constructor
  · rintro ⟨s, rfl⟩
    rw [text?_ofText]
    rfl
  · intro h
    obtain ⟨s, hs⟩ := Option.isSome_iff_exists.1 h
    exact ⟨s, text?_eq_some_iff.1 hs⟩

theorem isText_ofText (s : String) : IsText (ofText s) := ⟨s, rfl⟩

theorem IsText.append {a b : Bytes} (ha : IsText a) (hb : IsText b) : IsText (a ++ b) := by
  obtain ⟨s, rfl⟩ := ha
  obtain ⟨t, rfl⟩ := hb
  exact ⟨s ++ t, (ofText_append s t).symm⟩

theorem isText_ascii {b : Bytes} (h : ∀ x ∈ b, x.toNat < 128) : IsText b := by
  induction b with
  | nil => exact ⟨"", rfl⟩
  | cons x b ih =>
      have small := h x (by simp)
      have one : IsText [x] := by
        have char := toNat_ofNat_ascii x.toNat small
        refine ⟨String.ofList [Char.ofNat x.toNat], ?_⟩
        rw [ofText_ofList_ascii (by simpa [char] using small), List.map_singleton, char,
          UInt8.ofNat_toNat]
      exact one.append (ih fun y hy => h y (by simp [hy]))

theorem isText_single {x : UInt8} (h : x.toNat < 128) : IsText [x] := by
  refine isText_ascii ?_
  intro y mem
  rw [List.mem_singleton.1 mem]
  exact h

/-! ## Bytes that are shown -/

theorem frontLength_pos {b : Bytes} {k : Nat} {whole : Bool} (h : frontLength b = (k, whole))
    (ne : b ≠ []) : 0 < k := by
  unfold frontLength at h
  split at h
  · exact absurd rfl ne
  · repeat' split at h
    all_goals
      cases h
      decide

/-- Nothing was repaired where only ASCII is shown. -/
theorem repair_eq {n : Nat} {b : Bytes} (short : b.length ≤ n)
    (ascii : ∀ x ∈ repair n b, x.toNat < 128) : repair n b = b := by
  induction n generalizing b with
  | zero =>
      rw [List.length_eq_zero_iff.1 (Nat.le_zero.1 short)]
      rfl
  | succ n ih =>
      cases b with
      | nil => rfl
      | cons a rest =>
          unfold repair at ascii ⊢
          split at ascii
          · rename_i k front
            have positive := frontLength_pos front (List.cons_ne_nil a rest)
            have fewer : ((a :: rest).drop k).length ≤ n := by
              rw [List.length_drop]
              omega
            rw [ih fewer fun x mem => ascii x (List.mem_append_right _ mem),
              List.take_append_drop]
          · exact absurd (ascii 0xEF (by simp)) (by decide)

theorem ofText_display {b : Bytes} (ne : display b ≠ "")
    (ascii : ∀ x ∈ ofText (display b), x.toNat < 128) : ofText (display b) = b := by
  cases text : text? b with
  | some s =>
      rw [display, text]
      exact ofText_of_text? text
  | none =>
      cases repaired : text? (repair b.length b) with
      | none =>
          rw [display, text, repaired] at ne
          exact absurd rfl ne
      | some s =>
          have shown : display b = s := by rw [display, text, repaired]; rfl
          have spelt := ofText_of_text? repaired
          rw [shown, spelt] at ascii ⊢
          exact repair_eq (Nat.le_refl _) ascii

end LiveMigration.Bytes
