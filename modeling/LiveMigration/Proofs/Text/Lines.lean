import Mathlib.Data.List.DropRight
import LiveMigration.Proofs.Text.Bytes
import LiveMigration.Rpc.Call

/-!
Lines of text. The first line of what spells a text spells the first line of that text, whatever
other characters it has; trimming takes blanks off the ends and leaves the rest alone; and a run
of characters that are not blank stays one word.
-/

namespace LiveMigration

namespace Rpc

theorem newline_notMem_encode {c : Char} (h : c ≠ '\n') : newline ∉ String.utf8EncodeChar c := by
  intro mem
  by_cases small : c.toNat < 128
  · rw [Bytes.utf8EncodeChar_ascii small, List.mem_singleton] at mem
    have number : (10 : Nat) = c.toNat := by
      have := congrArg UInt8.toNat mem
      rw [UInt8.toNat_ofNat'] at this
      change 10 = c.toNat % 256 at this
      omega
    exact h (Char.toNat_inj.1 number.symm)
  · have := Bytes.le_of_mem_utf8EncodeChar (Nat.le_of_not_lt small) newline mem
    exact absurd this (by decide)

theorem firstLine_append {a : Bytes} (h : newline ∉ a) (b : Bytes) :
    firstLine (a ++ b) = a ++ firstLine b := by
  induction a with
  | nil => rfl
  | cons x a ih =>
      rw [List.mem_cons, not_or] at h
      rw [List.cons_append, firstLine, if_neg (Ne.symm h.1), ih h.2]
      rfl

/-- The characters before the first newline. -/
def lineOf (s : String) : List Char := s.toList.takeWhile (· ≠ '\n')

theorem firstLine_ofText (s : String) :
    firstLine (Bytes.ofText s ++ [newline]) =
      Bytes.ofText (String.ofList (lineOf s ++ ['\n'])) := by
  rw [Bytes.ofText_eq, Bytes.ofText_eq, String.toList_ofList, lineOf]
  induction s.toList with
  | nil => rfl
  | cons c cs ih =>
      by_cases line : c = '\n'
      · subst line
        rfl
      · rw [List.flatMap_cons, List.append_assoc, firstLine_append (newline_notMem_encode line), ih,
          List.takeWhile_cons_of_pos (by simpa using line), List.cons_append, List.flatMap_cons]

/-- A text takes as many lines as it has newlines, and one more. -/
theorem count_newline_ofText (s : String) :
    (Bytes.ofText s).count newline = s.toList.count '\n' := by
  rw [Bytes.ofText_eq]
  induction s.toList with
  | nil => rfl
  | cons c cs ih =>
      rw [List.flatMap_cons, List.count_append, ih]
      by_cases line : c = '\n'
      · subst line
        rw [List.count_cons_self, Nat.add_comm]
        rfl
      · rw [List.count_cons_of_ne line, List.count_eq_zero.2 (newline_notMem_encode line),
          Nat.zero_add]

end Rpc

namespace Text

theorem trimStartChars_of_cons {c : Char} {cs : List Char} (h : isBlank c = false) :
    trimStartChars (c :: cs) = c :: cs := by
  rw [trimStartChars, List.dropWhile_cons_of_neg (by simp [h])]

theorem trimEndChars_eq (cs : List Char) : trimEndChars cs = cs.rdropWhile isBlank := rfl

theorem trimEndChars_append {cs : List Char} (h : ∃ c ∈ cs, isBlank c = false)
    (front : List Char) : trimEndChars (front ++ cs) = front ++ trimEndChars cs := by
  have stops : (cs.reverse.dropWhile isBlank).isEmpty = false := by
    rw [List.isEmpty_eq_false_iff, Ne, List.dropWhile_eq_nil_iff]
    obtain ⟨c, mem, ink⟩ := h
    intro all
    have := all c (List.mem_reverse.2 mem)
    rw [ink] at this
    cases this
  rw [trimEndChars, List.reverse_append, List.dropWhile_append, if_neg (by rw [stops]; exact nofun),
    List.reverse_append, List.reverse_reverse, trimEndChars]

theorem foldr_addToWords {cs : List Char} (h : ∀ c ∈ cs, isBlank c = false)
    (acc : List Char × List (List Char)) :
    cs.foldr addToWords acc = (cs ++ acc.1, acc.2) := by
  induction cs with
  | nil => rfl
  | cons c cs ih =>
      rw [List.foldr_cons, ih fun x mem => h x (List.mem_cons_of_mem c mem), addToWords,
        if_neg (by rw [h c List.mem_cons_self]; exact nofun)]
      rfl

end Text

end LiveMigration
