import LiveMigration.Proofs.Json.Text
import LiveMigration.Proofs.Rpc.Handoff
import LiveMigration.Rpc.Wire

/-!
Messages on the wire. What a node writes for a message is read back as an equal message; it
cannot be written only if it has a path that is no text.
-/

namespace LiveMigration.Rpc

open Json

theorem writablePath_eq_ok {form : Form} {p : Path} {s : String}
    (h : writablePath form p = .ok s) : Path.ofText s = p := by
  unfold writablePath at h
  split at h
  · rename_i ht
    cases h
    exact congrArg Path.mk (Bytes.ofText_of_text? ht)
  · cases h

theorem asTexts_texts (names : List String) :
    asTexts (.array (names.map text) true) = .ok names := by
  have read : (names.map text).mapM asText = .ok names := by
    induction names with
    | nil => rfl
    | cons name names ih =>
        rw [List.map_cons, List.mapM_cons, ih]
        rfl
  unfold asTexts
  dsimp only
  rw [read]
  rfl

theorem checkItems_texts {depth : Nat} (names : List String) :
    checkItems (freeForm depth) true (names.map text) = .ok (names.map text) := by
  induction names with
  | nil => rfl
  | cons name names ih =>
      have first : freeForm depth (text name) = .ok (text name) := by
        cases depth <;> rfl
      rw [List.map_cons, checkItems, first, ih]
      rfl

theorem plainItems_texts (names : List String) : plainItems (names.map text) = true := by
  induction names with
  | nil => rfl
  | cons name names ih => exact ih

theorem plain_natural {n : Nat} (h : n < UInt64.size) : (natural n).isPlain = true := by
  simpa [natural, Tree.isPlain] using h

theorem plain_envelope (tag : String) {body : Tree} (plain : body.isPlain = true) :
    (record [("tag", text tag), ("body", body)]).isPlain = true := by
  simp [record, text, Tree.isPlain, plainMembers, plain]

theorem decodedAs_ok {α : Type} (form : Form) (v : α) : decodedAs form (.ok v) = .ok v := rfl

/-- What decodes a body decodes the message around it. -/
theorem decode_of_body {m : Message} {body : Tree} (plain : body.isPlain = true)
    (free : Envelope.freeBody body = .ok body) {line : Bytes}
    (h : write (record [("tag", text m.tag), ("body", body)]) = line) :
    Message.decode line = Message.ofEnvelope ⟨m.tag, body⟩ := by
  have whole := plain_envelope m.tag plain
  have isText := Bytes.isText_iff.1 (isText_write _ whole)
  subst h
  unfold Message.decode
  rw [if_neg (by simpa using Option.ne_none_iff_isSome.2 isText), decodeText_write _ whole]
  simp [record, Envelope.ofTree, foldMembers, Envelope.take, fill, text, asText, free,
    Except.map, required, decodedAs_ok, bind, Except.bind, pure, Except.pure]

theorem asPortNumber_natural (n : UInt16) : asPortNumber (natural n.toNat) = .ok n := by
  have small : n.toNat < UInt16.size := n.toNat_lt_size
  simp [asPortNumber, asNatural, natural, small, Except.map]

theorem portOf_number (form : Form) (p : Port) : portOf form p.number = .ok p := by
  unfold portOf
  rw [Port.ofNumber_number]
  rfl

theorem Join.new_parts (m : Join) :
    Join.new m.rpcPort.number m.dumpPath m.filePort.number = .ok m := by
  unfold Join.new
  rw [dif_pos m.absolute, portOf_number, portOf_number]
  rfl

theorem ofEnvelope_join {body : Tree} {b : JoinBody} (read : JoinBody.ofTree body = .ok b) :
    Message.ofEnvelope ⟨Form.join.name, body⟩ =
      (Join.new b.rpcPort (.ofText b.dumpPath) b.filePort).map .join := by
  have opened : Message.ofEnvelope ⟨Form.join.name, body⟩ =
      decodedAs .join (JoinBody.ofTree body) >>= fun b => do
        return .join (← Join.new b.rpcPort (.ofText b.dumpPath) b.filePort) := rfl
  rw [opened, read]
  simp only [decodedAs_ok, bind, Except.bind]
  cases Join.new b.rpcPort (.ofText b.dumpPath) b.filePort <;> rfl

theorem ofEnvelope_joinAck {body : Tree} {id : String}
    (read : containerIdOfTree body = .ok id) :
    Message.ofEnvelope ⟨Form.joinAck.name, body⟩ = (JoinAck.new id).map .joinAck := by
  have opened : Message.ofEnvelope ⟨Form.joinAck.name, body⟩ =
      decodedAs .joinAck (containerIdOfTree body) >>= fun id => do
        return .joinAck (← JoinAck.new id) := rfl
  rw [opened, read]
  simp only [decodedAs_ok, bind, Except.bind]
  cases JoinAck.new id <;> rfl

theorem ofEnvelope_migrate {body : Tree} {b : MigrateBody}
    (read : MigrateBody.ofTree body = .ok b) :
    Message.ofEnvelope ⟨Form.migrate.name, body⟩ =
      (Migrate.new b.names b.container (.ofText b.bundle)).map .migrate := by
  have opened : Message.ofEnvelope ⟨Form.migrate.name, body⟩ =
      decodedAs .migrate (MigrateBody.ofTree body) >>= fun b => do
        return .migrate (← Migrate.new b.names b.container (.ofText b.bundle)) := rfl
  rw [opened, read]
  simp only [decodedAs_ok, bind, Except.bind]
  cases Migrate.new b.names b.container (.ofText b.bundle) <;> rfl

theorem plain_port (p : Port) : (natural p.number.toNat).isPlain = true := by
  have small : p.number.toNat < UInt16.size := p.number.toNat_lt_size
  exact plain_natural (Nat.lt_trans small (by decide))

theorem decode_join {m : Join} {path : String} (hp : Path.ofText path = m.dumpPath)
    {line : Bytes}
    (h : write (record [("tag", text (Message.join m).tag), ("body", record [
      ("dump_path", text path),
      ("file_transfer_port", natural m.filePort.number.toNat),
      ("rpc_port", natural m.rpcPort.number.toNat)])]) = line) :
    Message.decode line = .ok (.join m) := by
  let body := record [("dump_path", text path),
    ("file_transfer_port", natural m.filePort.number.toNat),
    ("rpc_port", natural m.rpcPort.number.toNat)]
  have plain : body.isPlain = true := by
    simp [body, record, Tree.isPlain, plainMembers, plain_port, text]
  have read : JoinBody.ofTree body = .ok ⟨m.rpcPort.number, path, m.filePort.number⟩ := by
    simp [body, record, JoinBody.ofTree, foldMembers, JoinBody.take, fill, asPortNumber_natural,
      text, asText, Except.map, required, bind, Except.bind, pure, Except.pure]
  refine (decode_of_body plain rfl h).trans ((ofEnvelope_join read).trans ?_)
  rw [hp, Join.new_parts]
  rfl

theorem decode_migrate {m : Migrate} {path : String} (hp : Path.ofText path = m.bundle)
    {line : Bytes}
    (h : write (record [("tag", text (Message.migrate m).tag), ("body", record [
      ("bundle_path", text path),
      ("container_id", text m.container.text),
      ("dump_names", .array (m.names.map text) true)])]) = line) :
    Message.decode line = .ok (.migrate m) := by
  let body := record [("bundle_path", text path), ("container_id", text m.container.text),
    ("dump_names", .array (m.names.map text) true)]
  have plain : body.isPlain = true := by
    simp [body, record, Tree.isPlain, plainMembers, plainItems_texts, text]
  have free : Envelope.freeBody body = .ok body := by
    have names : freeForm 125 (.array (m.names.map text) true) =
        .ok (.array (m.names.map text) true) := by
      rw [freeForm, checkItems_texts]
      rfl
    have members : checkMembers (freeForm 125) true [(some "bundle_path", text path),
        (some "container_id", text m.container.text),
        (some "dump_names", .array (m.names.map text) true)] = .ok [("bundle_path", text path),
        ("container_id", text m.container.text),
        ("dump_names", .array (m.names.map text) true)] := by
      rw [checkMembers, checkMembers, checkMembers, names]
      rfl
    have opened : Envelope.freeBody body = checkMembers (freeForm 125) true
        [(some "bundle_path", text path), (some "container_id", text m.container.text),
          (some "dump_names", .array (m.names.map text) true)] >>= fun members =>
        return .object (members.foldl (fun acc m => insertMember m.1 m.2 acc) []) true := rfl
    rw [opened, members]
    simp only [bind, Except.bind, List.foldl_cons, List.foldl_nil]
    rfl
  have read : MigrateBody.ofTree body = .ok ⟨m.names, m.container.text, path⟩ := by
    simp [body, record, MigrateBody.ofTree, foldMembers, MigrateBody.take, fill, asTexts_texts,
      text, asText, Except.map, required, bind, Except.bind, pure, Except.pure]
  refine (decode_of_body plain free h).trans ((ofEnvelope_migrate read).trans ?_)
  rw [hp, Migrate.new_names]
  rfl

/-- A message that could be written is read back from its line. -/
theorem decode_encode {m : Message} {line : Bytes} (h : m.encode = .ok line) :
    Message.decode line = .ok m := by
  unfold Message.encode at h
  cases m with
  | join m =>
      cases hp : writablePath .join m.dumpPath with
      | error e => simp [Message.body, hp, bind, Except.bind] at h
      | ok path =>
          simp only [Message.body, hp, bind, Except.bind, pure, Except.pure] at h
          exact decode_join (writablePath_eq_ok hp) (Except.ok.inj h)
  | joinAck m =>
      simp only [Message.body, bind, Except.bind, pure, Except.pure] at h
      have read : containerIdOfTree (record [("container_id", text m.container.text)]) =
          .ok m.container.text := rfl
      refine (decode_of_body rfl rfl (Except.ok.inj h)).trans ((ofEnvelope_joinAck read).trans ?_)
      rw [JoinAck.new, containerOf_text]
      rfl
  | ping =>
      cases h
      rw [@decode_of_body .ping .null rfl rfl _ rfl]
      rfl
  | migrate m =>
      cases hp : writablePath .migrate m.bundle with
      | error e => simp [Message.body, hp, bind, Except.bind] at h
      | ok path =>
          simp only [Message.body, hp, bind, Except.bind, pure, Except.pure] at h
          exact decode_migrate (writablePath_eq_ok hp) (Except.ok.inj h)

/-- A handoff can be written if its bundle is a text. -/
theorem encode_migrate {m : Migrate} {path : String} (h : m.bundle = .ofText path) :
    ∃ line, (Message.migrate m).encode = .ok line := by
  have written : writablePath .migrate m.bundle = .ok path := by
    unfold writablePath Path.text?
    rw [h, Path.ofText, Bytes.text?_ofText]
  unfold Message.encode Message.body
  simp only [written, bind, Except.bind, pure, Except.pure]
  exact ⟨_, rfl⟩

end LiveMigration.Rpc
