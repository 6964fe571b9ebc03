import LiveMigration.Proofs.Json.RoundTrip
import LiveMigration.Transfer.Frame

/-!
Frames on a connection. Reading takes bytes from the front of what is still to come, however
that is cut into pieces, and what is read of a frame is what was written into it.
-/

namespace LiveMigration.Transfer

open Json

namespace Inflow

theorem flatten_of_readExact {n : Nat} {s rest : Inflow} {bytes : Bytes}
    (h : readExact n s = some (bytes, rest)) :
    s.flatten = bytes ++ rest.flatten ∧ bytes.length = n := by
  induction s generalizing n bytes with
  | nil =>
      cases n with
      | zero =>
          cases h
          exact ⟨rfl, rfl⟩
      | succ n => cases h
  | cons piece s ih =>
      cases n with
      | zero =>
          cases h
          exact ⟨rfl, rfl⟩
      | succ n =>
          unfold readExact at h
          split at h
          · cases h
            refine ⟨?_, List.length_take_of_le ‹_›⟩
            rw [List.flatten_cons, List.flatten_cons, ← List.append_assoc,
              List.take_append_drop]
          · obtain ⟨⟨first, behind⟩, read, same⟩ := Option.map_eq_some_iff.1 h
            cases same
            obtain ⟨flat, length⟩ := ih read
            refine ⟨?_, ?_⟩
            · rw [List.flatten_cons, flat, List.append_assoc]
            · rw [List.length_append, length]
              omega

theorem flatten_readSome (most : Nat) (s : Inflow) :
    s.flatten = (s.readSome most).1 ++ (s.readSome most).2.flatten := by
  induction s with
  | nil => rfl
  | cons piece rest ih =>
      unfold readSome
      split
      · rename_i empty
        rw [List.flatten_cons, List.isEmpty_iff.1 empty]
        exact ih
      · rw [List.flatten_cons, List.flatten_cons, ← List.append_assoc, List.take_append_drop]

/-- Nothing is read only where nothing is left. -/
theorem readSome_nil {most : Nat} {s rest : Inflow} (positive : 0 < most)
    (h : s.readSome most = ([], rest)) : s.flatten = [] ∧ rest.flatten = [] := by
  induction s with
  | nil =>
      cases h
      exact ⟨rfl, rfl⟩
  | cons piece s ih =>
      unfold readSome at h
      split at h
      · rename_i empty
        rw [List.flatten_cons, List.isEmpty_iff.1 empty]
        exact ih h
      · rename_i some
        obtain ⟨none, _⟩ := Prod.mk.inj h
        obtain zero | empty := List.take_eq_nil_iff.1 none
        · omega
        · exact absurd (List.isEmpty_iff.2 empty) some

theorem readExact_of_le {n : Nat} {s : Inflow} (enough : n ≤ s.flatten.length) :
    ∃ read, readExact n s = some read := by
  induction s generalizing n with
  | nil =>
      cases n with
      | zero => exact ⟨_, rfl⟩
      | succ n => cases enough
  | cons piece s ih =>
      cases n with
      | zero => exact ⟨_, rfl⟩
      | succ n =>
          rw [List.flatten_cons, List.length_append] at enough
          unfold readExact
          split
          · exact ⟨_, rfl⟩
          · obtain ⟨read, later⟩ := ih (n := n + 1 - piece.length) (by omega)
            exact ⟨_, congrArg _ later⟩

/-- What is read does not depend on where the bytes were cut. -/
theorem readExact_front {n : Nat} {s : Inflow} {front behind : Bytes}
    (flat : s.flatten = front ++ behind) (length : front.length = n) :
    ∃ rest, readExact n s = some (front, rest) ∧ rest.flatten = behind := by
  obtain ⟨⟨bytes, rest⟩, read⟩ := readExact_of_le (n := n) (s := s) (by
    rw [flat, List.length_append]
    omega)
  obtain ⟨flat', length'⟩ := flatten_of_readExact read
  obtain ⟨rfl, behind⟩ := List.append_inj (flat'.symm.trans flat) (length'.trans length.symm)
  exact ⟨rest, read, behind⟩

/-- Nor does it depend on what is still to come. -/
theorem readExact_more {n : Nat} {s s' rest : Inflow} {bytes more : Bytes}
    (flat : s'.flatten = s.flatten ++ more) (h : readExact n s = some (bytes, rest)) :
    ∃ rest', readExact n s' = some (bytes, rest') ∧ rest'.flatten = rest.flatten ++ more := by
  obtain ⟨front, length⟩ := flatten_of_readExact h
  rw [front, List.append_assoc] at flat
  exact readExact_front flat length

end Inflow

theorem lengthOf_lengthBytes {n : Nat} (h : n ≤ maxHeader) : lengthOf (lengthBytes n) = n := by
  unfold maxHeader at h
  simp only [lengthOf, lengthBytes, Sha256.bigEndian, List.foldl_cons, List.foldl_nil,
    UInt8.toNat_ofNat']
  omega

/-- What is read where a packed text begins is that text. -/
theorem unpack_pack {content frame behind : Bytes} {s : Inflow}
    (packed : pack content = .ok frame) (flat : s.flatten = frame ++ behind) :
    ∃ rest, unpack s = .ok (content, rest) ∧ rest.flatten = behind := by
  unfold pack at packed
  split at packed
  · cases packed
  rename_i short
  cases packed
  rw [List.append_assoc] at flat
  obtain ⟨middle, field, flat⟩ := Inflow.readExact_front (n := 4) flat rfl
  obtain ⟨rest, body, flat⟩ := Inflow.readExact_front flat rfl
  refine ⟨rest, ?_, flat⟩
  unfold unpack
  rw [field]
  dsimp only
  rw [lengthOf_lengthBytes (Nat.le_of_not_lt short), if_neg short, body]

theorem unpack_more {content more : Bytes} {s s' rest : Inflow}
    (flat : s'.flatten = s.flatten ++ more) (h : unpack s = .ok (content, rest)) :
    ∃ rest', unpack s' = .ok (content, rest') ∧ rest'.flatten = rest.flatten ++ more := by
  unfold unpack at h ⊢
  split at h
  · cases h
  rename_i read
  obtain ⟨middle, field, flat⟩ := Inflow.readExact_more flat read
  rw [field]
  dsimp only at h ⊢
  split at h
  · cases h
  rename_i short
  rw [if_neg short]
  split at h
  · cases h
  rename_i read
  cases h
  obtain ⟨rest', body, flat⟩ := Inflow.readExact_more flat read
  exact ⟨rest', by rw [body], flat⟩

section

variable {α : Type} {decode : Tree → Decoded α} {v : α} {s s' rest : Inflow}

theorem readAs_of_unpack {content : Bytes} (h : unpack s = .ok (content, rest)) :
    readAs decode s = match decodeText decode content with
      | .ok v => .ok (v, rest)
      | .error e => .error (.malformed (.undecodable e)) := by
  rw [readAs, h]
  rfl

theorem unpack_of_readAs (h : readAs decode s = .ok (v, rest)) :
    ∃ content, unpack s = .ok (content, rest) ∧ decodeText decode content = .ok v := by
  cases hu : unpack s with
  | error e =>
      rw [readAs, hu] at h
      cases h
  | ok read =>
      obtain ⟨content, behind⟩ := read
      rw [readAs_of_unpack hu] at h
      split at h
      · rename_i decoded
        cases h
        exact ⟨content, rfl, decoded⟩
      · cases h

theorem readAs_more {more : Bytes} (flat : s'.flatten = s.flatten ++ more)
    (h : readAs decode s = .ok (v, rest)) :
    ∃ rest', readAs decode s' = .ok (v, rest') ∧ rest'.flatten = rest.flatten ++ more := by
  obtain ⟨content, unpacked, decoded⟩ := unpack_of_readAs h
  obtain ⟨rest', unpacked, behind⟩ := unpack_more flat unpacked
  refine ⟨rest', ?_, behind⟩
  rw [readAs_of_unpack unpacked, decoded]

theorem readAs_pack {t : Tree} (plain : t.isPlain = true) (decoded : decode t = .ok v)
    {frame behind : Bytes} (packed : pack (write t) = .ok frame)
    (flat : s.flatten = frame ++ behind) :
    ∃ rest, readAs decode s = .ok (v, rest) ∧ rest.flatten = behind := by
  obtain ⟨rest, unpacked, flat⟩ := unpack_pack packed flat
  refine ⟨rest, ?_, flat⟩
  rw [readAs_of_unpack unpacked, decodeText_write decode plain, decoded]

end

end LiveMigration.Transfer
