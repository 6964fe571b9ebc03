/-!
Byte strings. File names, paths and everything that arrives on a socket are bytes; they
spell a text when they are well-formed UTF-8. Writing a text and reading it back is the
identity, and a byte string spells at most one text.
-/

namespace LiveMigration

abbrev Bytes := List UInt8

namespace Bytes

def ofText (s : String) : Bytes := s.toUTF8.data.toList

def text? (b : Bytes) : Option String := String.fromUTF8? ⟨b.toArray⟩

theorem text?_ofText (s : String) : text? (ofText s) = some s := by
  have h : s.toByteArray.IsValidUTF8 := s.isValidUTF8
  simp [text?, ofText, String.fromUTF8?, String.fromUTF8, h]

theorem ofText_of_text? {b : Bytes} {s : String} (h : text? b = some s) : ofText s = b := by
  unfold text? String.fromUTF8? at h
  split at h
  · cases h
    simp [ofText, String.fromUTF8]
  · cases h

theorem text?_eq_some_iff {b : Bytes} {s : String} : text? b = some s ↔ b = ofText s :=
  ⟨fun h => (ofText_of_text? h).symm, fun h => h ▸ text?_ofText s⟩

theorem ofText_injective {s t : String} (h : ofText s = ofText t) : s = t := by
  have := text?_ofText s
  rw [h, text?_ofText] at this
  exact (Option.some.inj this).symm

def isContinuation (b : UInt8) : Bool := 0x80 ≤ b && b ≤ 0xBF

/-- Whether the second byte may follow the first byte of a sequence of three or four. -/
def mayFollow (first second : UInt8) : Bool :=
  if first = 0xE0 then 0xA0 ≤ second && second ≤ 0xBF
  else if first = 0xED then 0x80 ≤ second && second ≤ 0x9F
  else if first = 0xF0 then 0x90 ≤ second && second ≤ 0xBF
  else if first = 0xF4 then 0x80 ≤ second && second ≤ 0x8F
  else isContinuation second

/-- How many bytes the sequence at the front takes, and whether it is well formed. Of an
ill-formed sequence these are the bytes that some well-formed one could begin with. -/
def frontLength : Bytes → Nat × Bool
  | [] => (0, true)
  | a :: rest =>
    if a < 0x80 then (1, true)
    else if 0xC2 ≤ a && a ≤ 0xDF then
      match rest with
      | b :: _ => if isContinuation b then (2, true) else (1, false)
      | [] => (1, false)
    else if 0xE0 ≤ a && a ≤ 0xEF then
      match rest with
      | b :: rest' =>
        if mayFollow a b then
          match rest' with
          | c :: _ => if isContinuation c then (3, true) else (2, false)
          | [] => (2, false)
        else (1, false)
      | [] => (1, false)
    else if 0xF0 ≤ a && a ≤ 0xF4 then
      match rest with
      | b :: rest' =>
        if mayFollow a b then
          match rest' with
          | c :: rest'' =>
            if isContinuation c then
              match rest'' with
              | d :: _ => if isContinuation d then (4, true) else (3, false)
              | [] => (3, false)
            else (2, false)
          | [] => (2, false)
        else (1, false)
      | [] => (1, false)
    else (1, false)

/-- Every ill-formed sequence becomes one replacement character. -/
def repair (fuel : Nat) (b : Bytes) : Bytes :=
  match fuel, b with
  | 0, _ => []
  | _, [] => []
  | n + 1, b =>
    match frontLength b with
    | (k, true) => b.take k ++ repair n (b.drop k)
    | (k, false) => [0xEF, 0xBF, 0xBD] ++ repair n (b.drop k)

def display (b : Bytes) : String :=
  match text? b with
  | some s => s
  | none => (text? (repair b.length b)).getD ""

/-- Cuts at every occurrence of the byte; there is always one piece more than cuts. -/
def splitOn (sep : UInt8) : Bytes → List Bytes
  | [] => [[]]
  | b :: rest =>
    if b = sep then [] :: splitOn sep rest
    else match splitOn sep rest with
      | [] => [[b]]
      | piece :: pieces => (b :: piece) :: pieces

def joinWith (sep : UInt8) : List Bytes → Bytes
  | [] => []
  | [p] => p
  | p :: ps => p ++ sep :: joinWith sep ps

theorem splitOn_ne_nil (sep : UInt8) (b : Bytes) : splitOn sep b ≠ [] := by
  cases b with
  | nil => simp [splitOn]
  | cons x rest =>
    unfold splitOn
    split
    · simp
    · split <;> simp

theorem joinWith_splitOn (sep : UInt8) (b : Bytes) : joinWith sep (splitOn sep b) = b := by
  induction b with
  | nil => rfl
  | cons x rest ih =>
    unfold splitOn
    split
    · rename_i h
      cases hs : splitOn sep rest with
      | nil => exact absurd hs (splitOn_ne_nil sep rest)
      | cons p ps => rw [hs] at ih; simp [joinWith, ih, h]
    · cases hs : splitOn sep rest with
      | nil => exact absurd hs (splitOn_ne_nil sep rest)
      | cons p ps =>
        rw [hs] at ih
        cases ps with
        | nil => simp [joinWith] at ih ⊢; exact ih
        | cons q qs => simp [joinWith] at ih ⊢; exact ih

end Bytes

end LiveMigration
