import LiveMigration.Validation

/-!
Container identifiers. An identifier is a non-empty word of letters, digits, `-`, `_` and
`.`, at most 1024 bytes long and not made of dots alone; so it holds no blank and can travel
inside a line of words.
-/

namespace LiveMigration

namespace ContainerId

def maxBytes : Nat := 1024

def isAllowed (c : Char) : Bool :=
  c.isAlphanum || c == '-' || c == '_' || c == '.'

def objection? (s : String) : Option Objection :=
  if s.isEmpty then some .emptyId
  else if maxBytes < s.utf8ByteSize then some (.longId s.utf8ByteSize maxBytes)
  else if s.toList.all (· == '.') then some .dotsOnlyId
  else (s.toList.find? (!isAllowed ·)).map .idCharacter

end ContainerId

structure ContainerId where
  text : String
  accepted : ContainerId.objection? text = none
  deriving DecidableEq, Repr

namespace ContainerId

def ofText (s : String) : Except ValidationError ContainerId :=
  match h : objection? s with
  | none => .ok ⟨s, h⟩
  | some why => .error (.invalidField "container_id" s why)

theorem ofText_text (id : ContainerId) : ofText id.text = .ok id := by
  unfold ofText
  split
  · rfl
  · rename_i h
    rw [id.accepted] at h
    cases h

theorem text_of_ofText {s : String} {id : ContainerId} (h : ofText s = .ok id) : id.text = s := by
  unfold ofText at h
  split at h
  · cases h
    rfl
  · cases h

theorem ofText_isOk_iff (s : String) : (∃ id, ofText s = .ok id) ↔ objection? s = none := by
  constructor
  · rintro ⟨id, h⟩
    rw [← text_of_ofText h]
    exact id.accepted
  · intro h
    exact ⟨⟨s, h⟩, ofText_text ⟨s, h⟩⟩

end ContainerId

end LiveMigration
