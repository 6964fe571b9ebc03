import LiveMigration.Proofs.Rpc.Framing
import LiveMigration.Rpc.Call
import Mathlib.Data.Nat.Digits.Defs

/-!
How long the line of a handoff is, and what a listener makes of one line. Nothing in the message
but its bundle is ever escaped, so the length is that of the bundle, the container and the names of
the dumps, and it goes up with every dump. No one looks at it before the line is written; a listener
takes a line as a whole, or drops it if it is too long.
-/

namespace LiveMigration

namespace Json

theorem length_escapeByte_le (b : UInt8) : (escapeByte b).length ≤ 6 := by
  have all : ∀ n < 256, (escapeByte (UInt8.ofNat n)).length ≤ 6 := by decide +kernel
  simpa using all b.toNat b.toNat_lt

theorem length_escaped_le (s : Bytes) : (s.flatMap escapeByte).length ≤ 6 * s.length := by
  induction s with
  | nil => exact Nat.le_refl 0
  | cons b s ih =>
      have first := length_escapeByte_le b
      rw [List.flatMap_cons, List.length_append, List.length_cons]
      omega

theorem escapeByte_of_visible : ∀ n < 128, 0x20 ≤ n → n ≠ 0x22 → n ≠ 0x5C →
    escapeByte (UInt8.ofNat n) = [UInt8.ofNat n] := by
  decide +kernel

/-- The characters that a string may have without any escapes. -/
def isSafe (c : Char) : Bool :=
  decide (0x20 ≤ c.toNat) && c != '"' && c != '\\'

theorem isSafe_of_isAlphanum {c : Char} (h : c.isAlphanum = true) : isSafe c = true := by
  have visible : 0x20 ≤ c.toNat :=
    Nat.le_trans (by decide) (ContainerId.range_of_isAlphanum h).1
  have quote : c ≠ '"' := by
    rintro rfl
    exact absurd h (by decide)
  have backslash : c ≠ '\\' := by
    rintro rfl
    exact absurd h (by decide)
  simp [isSafe, visible, quote, backslash]

theorem escapeByte_of_isSafe {s : String} (safe : ∀ c ∈ s.toList, isSafe c = true) :
    ∀ b ∈ Bytes.ofText s, escapeByte b = [b] := by
  intro b mem
  by_cases small : b.toNat < 128
  · have char := Bytes.toNat_ofNat_ascii b.toNat small
    have inside := Bytes.mem_of_mem_ofText mem char.symm (by rwa [char])
    have visible := safe _ inside
    simp only [isSafe, Bool.and_eq_true, decide_eq_true_eq, bne_iff_ne, char] at visible
    have ne (c : Char) (other : Char.ofNat b.toNat ≠ c) : b.toNat ≠ c.toNat := by
      intro same
      exact other (Char.toNat_inj.1 (char.trans same))
    have plain := escapeByte_of_visible b.toNat small visible.1.1 (ne '"' visible.1.2)
      (ne '\\' visible.2)
    rwa [UInt8.ofNat_toNat] at plain
  · exact escapeByte_of_le (Nat.le_of_not_lt small)

theorem length_ofText (s : String) : (Bytes.ofText s).length = s.utf8ByteSize := by
  simp [Bytes.ofText]

theorem length_quote (s : Bytes) : (quote s).length = (s.flatMap escapeByte).length + 2 := by
  simp [quote]

theorem length_quote_of_isSafe {s : String} (safe : ∀ c ∈ s.toList, isSafe c = true) :
    (quote (Bytes.ofText s)).length = s.utf8ByteSize + 2 := by
  have same : (Bytes.ofText s).flatMap escapeByte = Bytes.ofText s := by
    rw [List.flatMap_congr (escapeByte_of_isSafe safe), List.flatMap_singleton']
  rw [length_quote, same, length_ofText]

theorem length_text (s : String) : (write (text s)).length = (quote (Bytes.ofText s)).length := rfl

theorem length_writeItems {items : List Tree} (some : items ≠ []) :
    (writeItems items).length + 1 = (items.map fun v => (write v).length + 1).sum := by
  induction items with
  | nil => exact absurd rfl some
  | cons v items ih =>
      cases items with
      | nil => simp [writeItems]
      | cons w items =>
          have rest := ih (List.cons_ne_nil w items)
          rw [writeItems_cons_cons, List.length_append, List.length_cons, List.map_cons,
            List.sum_cons, ← rest]
          omega

/-- An array has brackets around its items, and a comma between any two of them. -/
theorem length_array {items : List Tree} (some : items ≠ []) (whole : Bool) :
    (write (.array items whole)).length = (items.map fun v => (write v).length + 1).sum + 1 := by
  rw [← length_writeItems some, write, List.length_append, List.length_cons]
  rfl

theorem length_writeMembers {members : List (Option String × Tree)} (some : members ≠ []) :
    (writeMembers members).length + 1 = (members.map fun m =>
      (quote (Bytes.ofText (m.1.getD ""))).length + (write m.2).length + 2).sum := by
  induction members with
  | nil => exact absurd rfl some
  | cons m members ih =>
      cases members with
      | nil =>
          simp only [writeMembers, List.length_append, List.length_cons, List.map_cons,
            List.map_nil, List.sum_cons, List.sum_nil]
          omega
      | cons n members =>
          have rest := ih (List.cons_ne_nil n members)
          rw [writeMembers_cons_cons, List.map_cons, List.sum_cons, ← rest]
          simp only [List.length_append, List.length_cons]
          omega

/-- An object has a colon in each of its members besides. -/
theorem length_record {members : List (String × Tree)} (some : members ≠ []) :
    (write (record members)).length = (members.map fun m =>
      (quote (Bytes.ofText m.1)).length + (write m.2).length + 2).sum + 1 := by
  rw [record, write, List.length_append, List.length_cons, length_writeMembers, List.map_map]
  · rfl
  · simpa using some

end Json

theorem ContainerId.isSafe_text (id : ContainerId) :
    ∀ c ∈ id.text.toList, Json.isSafe c = true := by
  intro c mem
  obtain plain | rfl | rfl | rfl := id.isValid_text.plain c mem
  · exact Json.isSafe_of_isAlphanum plain
  · rfl
  · rfl
  · rfl

namespace Dump

theorem isSafe_name (d : Dump) : ∀ c ∈ d.name.toList, Json.isSafe c = true := by
  rw [toList_name]
  intro c mem
  rcases List.mem_cons.1 mem with rfl | mem
  · cases d.kind <;> rfl
  · have digit := Nat.isDigit_of_mem_toDigits (by decide) (by decide) mem
    exact Json.isSafe_of_isAlphanum (by simp [Char.isAlphanum, digit])

theorem size_name (d : Dump) :
    d.name.utf8ByteSize = (Nat.toDigits 10 d.sequence.toNat).length + 1 := by
  rw [← Json.length_ofText, ← String.ofList_toList (s := d.name),
    Bytes.ofText_ofList_ascii fun _ mem => (bounds_of_mem_name mem).2, List.length_map,
    toList_name, List.length_cons]

/-- A name is a letter and one to twenty digits. -/
theorem size_name_bounds (d : Dump) : 2 ≤ d.name.utf8ByteSize ∧ d.name.utf8ByteSize ≤ 21 := by
  have some : 0 < (Nat.toDigits 10 d.sequence.toNat).length :=
    List.length_pos_iff.2 Nat.toDigits_ne_nil
  have few := Nat.toDigits_length 10 d.sequence.toNat 20 (by decide)
    (Nat.lt_trans d.sequence.toNat_lt_size (by decide))
  rw [size_name]
  omega

/-- What the names of some dumps take in a list. -/
theorem sum_sizes_bounds (ds : List Dump) :
    5 * ds.length ≤ (ds.map fun d => d.name.utf8ByteSize + 3).sum ∧
      (ds.map fun d => d.name.utf8ByteSize + 3).sum ≤ 24 * ds.length := by
  induction ds with
  | nil => exact ⟨Nat.le_refl 0, Nat.le_refl 0⟩
  | cons d ds ih =>
      have first := d.size_name_bounds
      rw [List.map_cons, List.sum_cons, List.length_cons]
      omega

end Dump

namespace Rpc

open Json

theorem line_eq_ok {m : Message} {line : Bytes} (h : m.line = .ok line) :
    ∃ text, m.encode = .ok text ∧ line = text ++ [newline] := by
  unfold Message.line at h
  cases written : m.encode with
  | error e =>
      rw [written] at h
      cases h
  | ok text =>
      rw [written] at h
      exact ⟨text, rfl, (Except.ok.inj h).symm⟩

theorem line_isOk_iff {m : Message} :
    (∃ line, m.line = .ok line) ↔ ∀ p ∈ m.path?, Bytes.IsText p.bytes := by
  rw [← encode_isOk_iff]
  constructor
  · rintro ⟨line, h⟩
    obtain ⟨text, encoded, _⟩ := line_eq_ok h
    exact ⟨text, encoded⟩
  · rintro ⟨text, encoded⟩
    exact ⟨text ++ [newline], by rw [Message.line, encoded]; rfl⟩

namespace Migrate

theorem exists_line_iff {m : Migrate} :
    (∃ line, (Message.migrate m).line = .ok line) ↔ Bytes.IsText m.bundle.bytes := by
  rw [line_isOk_iff]
  simp [Message.path?]

/-- How long the line of a handoff is, its end included. -/
def lineLength (m : Migrate) : Nat :=
  77 + (m.bundle.bytes.flatMap escapeByte).length + m.container.text.utf8ByteSize +
    (m.names.map fun name => name.utf8ByteSize + 3).sum

theorem length_names (m : Migrate) : (write (.array (m.names.map text) true)).length =
    (m.names.map fun name => name.utf8ByteSize + 3).sum + 1 := by
  have some : m.names.map text ≠ [] := by simpa [names] using m.nonempty
  rw [length_array some, List.map_map]
  refine congrArg (List.sum · + 1) (List.map_congr_left fun name mem => ?_)
  obtain ⟨d, _, rfl⟩ := List.mem_map.1 mem
  rw [Function.comp_apply, length_text, length_quote_of_isSafe d.isSafe_name]

theorem length_line {m : Migrate} {line : Bytes} (h : (Message.migrate m).line = .ok line) :
    line.length = m.lineLength := by
  obtain ⟨written, encoded, rfl⟩ := line_eq_ok h
  obtain ⟨body, hb, rfl⟩ := encode_eq_ok encoded
  obtain ⟨path, hp, hb⟩ := ok_of_bind hb
  obtain rfl := (Except.ok.inj hb).symm
  have bundle : m.bundle.bytes = Bytes.ofText path :=
    (congrArg Path.bytes (writablePath_eq_ok hp)).symm
  have container := length_quote_of_isSafe m.container.isSafe_text
  have keys : (quote (Bytes.ofText "tag")).length = 5 ∧
      (quote (Bytes.ofText "body")).length = 6 ∧
      (quote (Bytes.ofText "bundle_path")).length = 13 ∧
      (quote (Bytes.ofText "container_id")).length = 14 ∧
      (quote (Bytes.ofText "dump_names")).length = 12 := by
    decide +kernel
  have tag : (quote (Bytes.ofText (Message.migrate m).tag)).length = 9 := rfl
  rw [List.length_append, length_record (List.cons_ne_nil _ _)]
  simp only [List.map_cons, List.map_nil, List.sum_cons, List.sum_nil]
  rw [length_record (List.cons_ne_nil _ _)]
  simp only [List.map_cons, List.map_nil, List.sum_cons, List.sum_nil, length_text, m.length_names,
    ← bundle, length_quote m.bundle.bytes, container, keys, tag]
  rw [lineLength, List.length_singleton]
  omega

/-- Every dump takes at least five bytes of the line. -/
theorem dumps_lt_lineLength (m : Migrate) : 5 * m.dumps.length < m.lineLength := by
  have each := (Dump.sum_sizes_bounds m.dumps).1
  rw [lineLength, names, List.map_map]
  exact Nat.lt_of_le_of_lt each (Nat.lt_add_of_pos_left (by omega))

/-- Every dump takes at most 24 bytes of the line, and every byte of the bundle at most six. -/
theorem lineLength_le (m : Migrate) :
    m.lineLength ≤ 1101 + 6 * m.bundle.bytes.length + 24 * m.dumps.length := by
  have bundle := length_escaped_le m.bundle.bytes
  have container : m.container.text.utf8ByteSize ≤ 1024 := m.container.isValid_text.short
  have each := (Dump.sum_sizes_bounds m.dumps).2
  rw [lineLength, names, List.map_map]
  dsimp only [Function.comp_def]
  omega

end Migrate

namespace Session

variable {σ : Type} (handle : Handler σ)

theorem run_data (state : σ) (pieces : List Bytes) :
    run handle state (pieces.map .data) =
      pieces.flatten.foldl (takeByte handle) (within [] [] state) := by
  rw [run, start_eq, List.foldl_map, List.foldl_flatten]
  rfl

/-- What comes after the end of a connection is not taken. -/
theorem foldl_closed {s : Session σ} (closed : s.isOpen = false) (bytes : Bytes) :
    bytes.foldl (takeByte handle) s = s := by
  induction bytes with
  | nil => rfl
  | cons b bytes ih =>
      have ignored : takeByte handle s b = s := by simp [takeByte, closed]
      rw [List.foldl_cons, ignored, ih]

/-- A listener that has given up on a line as long as this. -/
def overrun (front : Bytes) (replies : List Bytes) (state : σ) : Session σ :=
  ⟨front.reverse, 0, false, replies, state⟩

/-- A line ends the connection with its last byte that still fits, unless this is its end. -/
theorem foldl_overrun {front : Bytes} (single : newline ∉ front) (full : front.length = maxLine)
    (more : Bytes) (replies : List Bytes) (state : σ) :
    (front ++ more).foldl (takeByte handle) (within [] replies state) =
      overrun front replies state := by
  obtain ⟨init, last, rfl⟩ := (List.eq_nil_or_concat front).resolve_left
    (List.ne_nil_of_length_pos (by rw [full]; decide))
  rw [List.concat_eq_append] at single full ⊢
  rw [List.length_append, List.length_singleton] at full
  have fits : init.length < maxLine := by omega
  have inside : last ≠ newline := by
    rintro rfl
    exact single (by simp)
  have room : maxLine - init.length = 1 := by omega
  have gone : takeByte handle (within init replies state) last =
      overrun (init ++ [last]) replies state := by
    simp [takeByte, within, finishLine, close, overrun, room, inside]
  rw [List.append_assoc, List.foldl_append, List.singleton_append, List.foldl_cons,
    foldl_within handle (fun h => single (by simp [h])) (by simpa using fits), List.nil_append,
    gone, foldl_closed handle rfl]

/-- A listener that is sent one message answers it, if its line fits, and otherwise closes the
connection without having handled anything. -/
theorem run_line {m : Message} {line : Bytes} (h : m.line = .ok line) (state : σ)
    {pieces : List Bytes} (sent : pieces.flatten = line) :
    run (noted handle) (state, []) (pieces.map .data) =
      if line.length ≤ maxLine then
        within [] [lineOf (handle m state).1] ((handle m state).2, [m])
      else overrun (line.take maxLine) [] (state, []) := by
  obtain ⟨text, encoded, rfl⟩ := line_eq_ok h
  rw [run_data, sent]
  split
  · rename_i fits
    exact foldl_line (noted handle) encoded (by simpa using fits) [] (state, [])
  · rename_i long
    rw [List.length_append, List.length_singleton] at long
    have short : maxLine ≤ text.length := by omega
    have single : newline ∉ text.take maxLine := fun mem =>
      (line_of_encode encoded).2 (List.mem_of_mem_take mem)
    have front : (text ++ [newline]).take maxLine = text.take maxLine :=
      List.take_append_of_le_length short
    have parts := foldl_overrun (noted handle) single (List.length_take_of_le short)
      (text.drop maxLine ++ [newline]) [] (state, [])
    rwa [← List.append_assoc, List.take_append_drop, ← front] at parts

end Session

end Rpc

end LiveMigration
