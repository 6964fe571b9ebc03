import LiveMigration.Proofs.Digest.Hex
import LiveMigration.Proofs.Transfer.Frame

/-!
Headers and verdicts on a connection. What is read of either is what was written, with its
tag if there is one; a header that was sealed with another secret is not read at all.
-/

namespace LiveMigration.Transfer

open Json

namespace Header

theorem plain_toTree (h : Header) : h.toTree.isPlain = true := by
  cases h with
  | file dump name size checksum =>
      have size := size.toNat_lt_size
      have checksum : checksum.toNat < UInt64.size :=
        Nat.lt_trans checksum.toNat_lt_size (by decide)
      simpa [toTree, record, text, natural, Tree.isPlain, plainMembers] using ⟨size, checksum⟩
  | parentLink => rfl
  | done => rfl

theorem ofTree_toTree (h : Header) : ofTree h.toTree = .ok h := by
  cases h with
  | file dump name size checksum =>
      have size := size.toNat_lt_size
      have checksum := checksum.toNat_lt_size
      simp [ofTree, toTree, record, text, natural, foldMembers, take, fill, asKind, asText,
        buffered, maxDepth, ofMembers, takeFile, required, asSize, asChecksum, asNatural, size,
        checksum, Except.map, bind, Except.bind, pure, Except.pure]
  | parentLink dump pointsTo => rfl
  | done dump => rfl

end Header

namespace Frame

theorem plain_toTree (f : Frame) : f.toTree.isPlain = true := by
  obtain ⟨header, tag⟩ := f
  have plain := header.plain_toTree
  cases tag <;> simp [toTree, record, text, Tree.isPlain, plainMembers, plain]

theorem ofTree_toTree (f : Frame) : ofTree f.toTree = .ok f := by
  obtain ⟨header, tag⟩ := f
  have read := header.ofTree_toTree
  cases tag <;>
    simp [ofTree, toTree, record, text, foldMembers, take, fill, read, asOptional, asText,
      required, Except.map, bind, Except.bind, pure, Except.pure]

end Frame

variable {auth other : Auth} {h h' : Header} {f : Frame} {s s' rest : Inflow}
  {frame behind : Bytes}

theorem readHeader_of_readAs (read : readAs Frame.ofTree s = .ok (f, rest)) :
    readHeader auth s =
      if auth.accepts f.header f.tag then .ok (f.header, rest) else .error .unauthenticated := by
  rw [readHeader, read]
  rfl

theorem readAs_of_readHeader (read : readHeader auth s = .ok (h, rest)) :
    ∃ f, readAs Frame.ofTree s = .ok (f, rest) ∧ f.header = h ∧
      auth.accepts f.header f.tag = true := by
  cases hf : readAs Frame.ofTree s with
  | error e =>
      rw [readHeader, hf] at read
      cases read
  | ok r =>
      obtain ⟨f, behind⟩ := r
      rw [readHeader_of_readAs hf] at read
      split at read
      · cases read
        exact ⟨f, rfl, rfl, ‹_›⟩
      · cases read

theorem Auth.accepts_tag (auth : Auth) (h : Header) : auth.accepts h (auth.tag h) = true := by
  cases auth with
  | none => rfl
  | some code => exact Auth.accepts_iff.2 ⟨_, rfl, Hex.decode?_encode _⟩

/-- What is read where a written header begins is that header. -/
theorem readHeader_writeHeader (written : writeHeader auth h = .ok frame)
    (flat : s.flatten = frame ++ behind) (read : readHeader other s = .ok (h', s')) :
    h' = h ∧ s'.flatten = behind := by
  obtain ⟨rest, framed, flat⟩ :=
    readAs_pack (Frame.plain_toTree _) (Frame.ofTree_toTree _) written flat
  rw [readHeader_of_readAs framed] at read
  split at read
  · cases read
    exact ⟨rfl, flat⟩
  · cases read

/-- Under the same secret it is read. -/
theorem readHeader_written (written : writeHeader auth h = .ok frame)
    (flat : s.flatten = frame ++ behind) :
    ∃ rest, readHeader auth s = .ok (h, rest) ∧ rest.flatten = behind := by
  obtain ⟨rest, framed, flat⟩ :=
    readAs_pack (Frame.plain_toTree _) (Frame.ofTree_toTree _) written flat
  exact ⟨rest, (readHeader_of_readAs framed).trans (if_pos (auth.accepts_tag h)), flat⟩

theorem readHeader_more {more : Bytes} (flat : s'.flatten = s.flatten ++ more)
    (read : readHeader auth s = .ok (h, rest)) :
    ∃ rest', readHeader auth s' = .ok (h, rest') ∧ rest'.flatten = rest.flatten ++ more := by
  obtain ⟨f, framed, rfl, accepted⟩ := readAs_of_readHeader read
  obtain ⟨rest', framed, behind⟩ := readAs_more flat framed
  exact ⟨rest', (readHeader_of_readAs framed).trans (if_pos accepted), behind⟩

/-- What is read is that header too if something of what was written is lost. -/
theorem readHeader_of_cut {lost : Bytes} (written : writeHeader auth h = .ok frame)
    (cut : s.flatten ++ lost = frame ++ behind) (read : readHeader other s = .ok (h', s')) :
    h' = h ∧ s'.flatten ++ lost = behind := by
  have whole : (s ++ [lost]).flatten = s.flatten ++ lost := by
    rw [List.flatten_append, List.flatten_singleton]
  obtain ⟨rest, read, flat⟩ := readHeader_more whole read
  obtain ⟨same, behind⟩ := readHeader_writeHeader written (whole.trans cut) read
  exact ⟨same, flat.symm.trans behind⟩

namespace Verdict

theorem plain_toTree (v : Verdict) : v.toTree.isPlain = true := by
  obtain ⟨ok, reason⟩ := v
  cases reason <;> rfl

theorem ofTree_toTree (v : Verdict) : ofTree v.toTree = .ok v := by
  obtain ⟨ok, reason⟩ := v
  cases reason <;> rfl

/-- An answer is favourable only if the receiver meant it so. -/
theorem isOk_of_readAs {outcome : Except TransferError String} {v : Verdict} {rest : Inflow}
    (h : readAs ofTree [(ofOutcome outcome).encode] = .ok (v, rest)) (ok : v.ok = true) :
    ∃ dump, outcome = .ok dump := by
  unfold encode at h
  split at h
  · rename_i packed
    obtain ⟨rest, read, _⟩ := readAs_pack (plain_toTree _) (ofTree_toTree _) packed
      (List.flatten_singleton.trans (List.append_nil _).symm)
    rw [read] at h
    cases h
    cases outcome with
    | ok dump => exact ⟨dump, rfl⟩
    | error e => cases ok
  · cases h

end Verdict

end LiveMigration.Transfer
