import LiveMigration.Proofs.Rpc.RoundTrip
import LiveMigration.Rpc.Session

/-!
The codec as a whole. A message can be written exactly if its path is a text, and its line is
read back as the message. Whatever else a line holds, repeated keys, names out of order, a
body that is a list, a message read from it is well formed, and it is one that can be
written, so that its own line says the same.
-/

namespace LiveMigration

namespace ContainerId

/-- What an identifier has to look like. -/
structure IsValid (s : String) : Prop where
  nonempty : s ≠ ""
  short : s.utf8ByteSize ≤ 1024
  notDots : ∃ c ∈ s.toList, c ≠ '.'
  plain : ∀ c ∈ s.toList, c.isAlphanum = true ∨ c = '-' ∨ c = '_' ∨ c = '.'

theorem isAllowed_iff {c : Char} :
    isAllowed c = true ↔ c.isAlphanum = true ∨ c = '-' ∨ c = '_' ∨ c = '.' := by
  simp [isAllowed, or_assoc]

theorem range_of_isAlphanum {c : Char} (h : c.isAlphanum = true) :
    48 ≤ c.toNat ∧ c.toNat ≤ 122 := by
  delta Char.isAlphanum Char.isAlpha Char.isUpper Char.isLower Char.isDigit at h
  simp only [Bool.or_eq_true, Bool.and_eq_true, decide_eq_true_eq, ge_iff_le,
    UInt32.le_iff_toNat_le] at h
  change (((65 ≤ c.toNat ∧ c.toNat ≤ 90) ∨ (97 ≤ c.toNat ∧ c.toNat ≤ 122)) ∨
    (48 ≤ c.toNat ∧ c.toNat ≤ 57)) at h
  omega

theorem objection?_eq_none_iff {s : String} : objection? s = none ↔ IsValid s := by
  unfold objection?
  constructor
  · intro h
    split at h
    · cases h
    rename_i nonempty
    split at h
    · cases h
    rename_i short
    split at h
    · cases h
    rename_i notDots
    refine ⟨by simpa using nonempty, Nat.le_of_not_lt short, by simpa using notDots, ?_⟩
    intro c hc
    have none := List.find?_eq_none.1 (Option.map_eq_none_iff.1 h) c hc
    exact isAllowed_iff.1 (by simpa using none)
  · intro h
    have nonempty : ¬ s.isEmpty = true := by simpa using h.nonempty
    have notDots : ¬ s.toList.all (· == '.') = true := by simpa using h.notDots
    have short : ¬ maxBytes < s.utf8ByteSize := Nat.not_lt.2 h.short
    rw [if_neg nonempty, if_neg short, if_neg notDots, Option.map_eq_none_iff,
      List.find?_eq_none]
    intro c hc
    simpa using isAllowed_iff.2 (h.plain c hc)

theorem isValid_text (id : ContainerId) : IsValid id.text :=
  objection?_eq_none_iff.1 id.accepted

end ContainerId

namespace Rpc

open Json

/-- The path in a message, if it has one. -/
def Message.path? : Message → Option Path
  | .join m => some m.dumpPath
  | .joinAck _ | .ping => none
  | .migrate m => some m.bundle

/-- What a node may rely on in a message. -/
def Message.WellFormed : Message → Prop
  | .join m =>
    m.rpcPort.number ≠ 0 ∧ m.filePort.number ≠ 0 ∧ m.dumpPath.bytes.head? = some Path.slash
  | .joinAck m => ContainerId.IsValid m.container.text
  | .ping => True
  | .migrate m =>
    m.dumps ≠ [] ∧ m.dumps.Pairwise (fun a b => a.sequence < b.sequence) ∧
      ContainerId.IsValid m.container.text ∧ m.bundle.bytes ≠ []

/-- What was made in two steps was made in the first and then in the second. -/
theorem ok_of_bind {ε α β : Type} {x : Except ε α} {f : α → Except ε β} {b : β}
    (h : x >>= f = .ok b) : ∃ a, x = .ok a ∧ f a = .ok b := by
  cases x with
  | error e => cases h
  | ok a => exact ⟨a, rfl, h⟩

theorem ok_of_mapError {ε ε' α : Type} {f : ε → ε'} {x : Except ε α} {a : α}
    (h : x.mapError f = .ok a) : x = .ok a := by
  cases x with
  | error e => cases h
  | ok b =>
      cases h
      rfl

theorem wellFormed (m : Message) : m.WellFormed := by
  cases m with
  | join m =>
      refine ⟨m.rpcPort.ne_zero, m.filePort.ne_zero, ?_⟩
      simpa [Path.isAbsolute] using m.absolute
  | joinAck m => exact m.container.isValid_text
  | ping => trivial
  | migrate m =>
      refine ⟨m.nonempty, ascending_iff.1 m.ascending, m.container.isValid_text, ?_⟩
      simpa [Path.isEmpty] using m.bundled

/-! ## Writing -/

theorem writablePath_isOk_iff {form : Form} {p : Path} :
    (∃ s, writablePath form p = .ok s) ↔ Bytes.IsText p.bytes := by
  rw [Bytes.isText_iff, Option.isSome_iff_exists]
  constructor
  · rintro ⟨s, h⟩
    unfold writablePath at h
    split at h
    · rename_i t ht
      exact ⟨t, ht⟩
    · cases h
  · rintro ⟨s, h⟩
    refine ⟨s, ?_⟩
    unfold writablePath Path.text?
    rw [h]

/-- Only a path can be in the way of writing a message. -/
theorem body_isOk_iff {m : Message} :
    (∃ body, m.body = .ok body) ↔ ∀ p ∈ m.path?, Bytes.IsText p.bytes := by
  have writable (form : Form) (p : Path) (f : String → Tree) :
      (∃ body, (writablePath form p >>= fun s => pure (f s)) = .ok body) ↔
        ∀ q ∈ some p, Bytes.IsText q.bytes := by
    have same : (∀ q ∈ some p, Bytes.IsText q.bytes) ↔ ∃ s, writablePath form p = .ok s := by
      rw [writablePath_isOk_iff]
      simp
    rw [same]
    cases writablePath form p with
    | ok s => exact ⟨fun _ => ⟨s, rfl⟩, fun _ => ⟨f s, rfl⟩⟩
    | error e => exact ⟨nofun, nofun⟩
  cases m with
  | join m => exact writable .join m.dumpPath _
  | joinAck m => exact ⟨fun _ => nofun, fun _ => ⟨_, rfl⟩⟩
  | ping => exact ⟨fun _ => nofun, fun _ => ⟨_, rfl⟩⟩
  | migrate m => exact writable .migrate m.bundle _

theorem plain_body {m : Message} {body : Tree} (h : m.body = .ok body) :
    body.isPlain = true := by
  cases m with
  | join m =>
      obtain ⟨path, _, h⟩ := ok_of_bind h
      cases h
      simp [record, text, Tree.isPlain, plainMembers, plain_port]
  | joinAck m | ping =>
      cases h
      rfl
  | migrate m =>
      obtain ⟨path, _, h⟩ := ok_of_bind h
      cases h
      simp [record, text, Tree.isPlain, plainMembers, plainItems_texts]

theorem encode_eq_ok {m : Message} {line : Bytes} (h : m.encode = .ok line) :
    ∃ body, m.body = .ok body ∧
      line = write (record [("tag", text m.tag), ("body", body)]) := by
  obtain ⟨body, hb, h⟩ := ok_of_bind h
  exact ⟨body, hb, (Except.ok.inj h).symm⟩

theorem encode_isOk_iff {m : Message} :
    (∃ line, m.encode = .ok line) ↔ ∀ p ∈ m.path?, Bytes.IsText p.bytes := by
  rw [← body_isOk_iff]
  constructor
  · rintro ⟨line, h⟩
    obtain ⟨body, hb, _⟩ := encode_eq_ok h
    exact ⟨body, hb⟩
  · rintro ⟨body, hb⟩
    refine ⟨write (record [("tag", text m.tag), ("body", body)]), ?_⟩
    rw [Message.encode, hb]
    rfl

/-- A message is one line of text. -/
theorem line_of_encode {m : Message} {line : Bytes} (h : m.encode = .ok line) :
    Bytes.IsText line ∧ newline ∉ line := by
  obtain ⟨body, hb, rfl⟩ := encode_eq_ok h
  have plain := plain_envelope m.tag (plain_body hb)
  refine ⟨isText_write _ plain, ?_⟩
  intro inside
  exact absurd (isVisible_write _ plain newline inside) (by decide)

/-! ## Reading -/

theorem Join.dumpPath_of_new {rpcPort filePort : UInt16} {dumpPath : Path} {m : Join}
    (h : Join.new rpcPort dumpPath filePort = .ok m) : m.dumpPath = dumpPath := by
  unfold Join.new at h
  split at h
  · obtain ⟨_, _, h⟩ := ok_of_bind h
    obtain ⟨_, _, h⟩ := ok_of_bind h
    cases h
    rfl
  · cases h

/-- A path from the wire was a text there. -/
theorem isText_of_ofEnvelope {e : Envelope} {m : Message} (h : Message.ofEnvelope e = .ok m) :
    ∀ p ∈ m.path?, Bytes.IsText p.bytes := by
  unfold Message.ofEnvelope at h
  split at h
  · obtain ⟨b, _, h⟩ := ok_of_bind h
    obtain ⟨j, hj, h⟩ := ok_of_bind h
    cases h
    rintro _ ⟨⟩
    exact ⟨b.dumpPath, congrArg Path.bytes (Join.dumpPath_of_new hj)⟩
  split at h
  · obtain ⟨id, _, h⟩ := ok_of_bind h
    obtain ⟨a, _, h⟩ := ok_of_bind h
    cases h
    nofun
  split at h
  · cases h
    nofun
  split at h
  · obtain ⟨b, _, h⟩ := ok_of_bind h
    obtain ⟨j, hj, h⟩ := ok_of_bind h
    cases h
    obtain ⟨_, _, _, _, bundle⟩ := Migrate.dumps_of_new hj
    rintro _ ⟨⟩
    exact ⟨b.bundle, congrArg Path.bytes bundle⟩
  · cases h

theorem isText_of_decode {line : Bytes} {m : Message} (h : Message.decode line = .ok m) :
    ∀ p ∈ m.path?, Bytes.IsText p.bytes := by
  unfold Message.decode at h
  split at h
  · cases h
  · obtain ⟨e, _, h⟩ := ok_of_bind h
    exact isText_of_ofEnvelope h

/-- Encoding fails for nothing but a path that is no text, and is inverted by decoding; what is
decoded is well formed and can be encoded again. -/
theorem codec_round_trip :
    (∀ m : Message, (∃ line, m.encode = .ok line) ↔ ∀ p ∈ m.path?, Bytes.IsText p.bytes) ∧
      (∀ (m : Message) (line : Bytes), m.encode = .ok line →
        Bytes.IsText line ∧ newline ∉ line ∧ Message.decode line = .ok m) ∧
      ∀ (line : Bytes) (m : Message), Message.decode line = .ok m →
        m.WellFormed ∧ ∃ own, m.encode = .ok own ∧ Message.decode own = .ok m := by
  refine ⟨fun m => encode_isOk_iff, ?_, ?_⟩
  · intro m line h
    obtain ⟨isText, single⟩ := line_of_encode h
    exact ⟨isText, single, decode_encode h⟩
  · intro line m h
    obtain ⟨own, written⟩ := encode_isOk_iff.2 (isText_of_decode h)
    exact ⟨wellFormed m, own, written, decode_encode written⟩

/-- A body that is a list, a member that no envelope has, and escapes that no node writes. -/
def foreignLine : Bytes :=
  Bytes.ofText "\x7b\"body\":[4700,\"\\/d\\u000a1\",4800],\"id\":7,\"tag\":\"Join\"\x7d"

def foreignJoin : Join where
  rpcPort := ⟨4700, by decide⟩
  dumpPath := .ofText "/d\n1"
  filePort := ⟨4800, by decide⟩
  absolute := by decide +kernel

theorem codec_round_trip_sample : Message.decode foreignLine = .ok (.join foreignJoin) ∧
    (Message.join foreignJoin).WellFormed ∧
    ∃ own, (Message.join foreignJoin).encode = .ok own ∧ newline ∉ own ∧
      Message.decode own = .ok (.join foreignJoin) := by
  have read : Message.decode foreignLine = .ok (.join foreignJoin) := rfl
  obtain ⟨_, writes, reads⟩ := codec_round_trip
  obtain ⟨wellFormed, own, written, back⟩ := reads foreignLine _ read
  obtain ⟨_, single, _⟩ := writes _ own written
  exact ⟨read, wellFormed, own, written, single, back⟩

end Rpc

end LiveMigration
