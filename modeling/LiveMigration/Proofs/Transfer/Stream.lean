import LiveMigration.Proofs.Transfer.Arrival

/-!
Whole streams. A stream is read header by header, with the bytes that each of them announces,
until one says that the dump is complete. What is read is what was written, however the bytes
were cut on their way, and a stream of which something is missing is never read to its end.
-/

namespace LiveMigration.Transfer

/-- Headers up to the end of a dump with what stands behind them, and what comes after it. -/
def readAll (auth : Auth) (s : Inflow) : Option (List (Header × Bytes) × Inflow) :=
  match _hh : readHeader auth s with
  | .error _ => none
  | .ok (header, stream) =>
    if header.completed?.isSome then some ([(header, [])], stream)
    else
      match _hc : stream.readExact header.contentLength with
      | none => none
      | some (content, rest) =>
        (readAll auth rest).map fun (ps, rest) => ((header, content) :: ps, rest)
  termination_by s.size
  decreasing_by
    have header := size_of_readHeader _hh
    have content := Inflow.size_of_readExact _hc
    omega

/-- What stands behind the headers of a dump before its end. -/
def Announced (ps : List (Header × Bytes)) : Prop :=
  ∀ p ∈ ps, p.1.completed? = none ∧ p.2.length = p.1.contentLength

instance (ps : List (Header × Bytes)) : Decidable (Announced ps) :=
  inferInstanceAs (Decidable (∀ p ∈ ps, _))

variable {auth other : Auth} {header : Header} {ps front : List (Header × Bytes)}
  {s s' stream rest rest' : Inflow} {bytes behind content : Bytes} {dump : String}

theorem readAll_last (read : readHeader auth s = .ok (header, stream))
    (last : header.completed?.isSome = true) : readAll auth s = some ([(header, [])], stream) := by
  rw [readAll]
  split
  · rename_i failed
    rw [read] at failed
    cases failed
  · rename_i ok
    rw [read] at ok
    cases ok
    rw [if_pos last]

theorem readAll_cons (read : readHeader auth s = .ok (header, stream))
    (more : header.completed? = none)
    (taken : stream.readExact header.contentLength = some (content, rest)) :
    readAll auth s =
      (readAll auth rest).map fun (ps, rest) => ((header, content) :: ps, rest) := by
  rw [readAll]
  split
  · rename_i failed
    rw [read] at failed
    cases failed
  · rename_i ok
    rw [read] at ok
    cases ok
    rw [if_neg (by rw [more]; exact Bool.false_ne_true)]
    split
    · rename_i none
      rw [taken] at none
      cases none
    · rename_i some
      rw [taken] at some
      cases some
      rfl

/-- How a stream can have been read. -/
inductive Reading (auth : Auth) : Inflow → List (Header × Bytes) → Inflow → Prop
  | last {s rest : Inflow} {header : Header} (read : readHeader auth s = .ok (header, rest))
      (last : header.completed?.isSome = true) : Reading auth s [(header, [])] rest
  | cons {s stream between rest : Inflow} {header : Header} {content : Bytes}
      {ps : List (Header × Bytes)} (read : readHeader auth s = .ok (header, stream))
      (more : header.completed? = none)
      (taken : stream.readExact header.contentLength = some (content, between))
      (behind : Reading auth between ps rest) : Reading auth s ((header, content) :: ps) rest

theorem readAll_eq_some_iff : readAll auth s = some (ps, rest) ↔ Reading auth s ps rest := by
  constructor
  · intro h
    fun_induction readAll auth s generalizing ps with
    | case1 => cases h
    | case2 s header stream read last =>
        cases h
        exact .last read last
    | case3 => cases h
    | case4 s header stream read more content between taken ih =>
        obtain ⟨⟨behind, rest'⟩, later, same⟩ := Option.map_eq_some_iff.1 h
        cases same
        have more : header.completed? = none := by simpa using more
        exact .cons read more taken (ih later)
  · intro reading
    induction reading with
    | last read last => exact readAll_last read last
    | cons read more taken _ ih => rw [readAll_cons read more taken, ih, Option.map_some]

/-- What is read does not depend on where the bytes were cut, nor on what comes behind. -/
theorem Reading.more {more : Bytes} (reading : Reading auth s ps rest)
    (flat : s'.flatten = s.flatten ++ more) :
    ∃ rest', Reading auth s' ps rest' ∧ rest'.flatten = rest.flatten ++ more := by
  induction reading generalizing s' with
  | last read last =>
      obtain ⟨rest', read, behind⟩ := readHeader_more flat read
      exact ⟨rest', .last read last, behind⟩
  | cons read more taken _ ih =>
      obtain ⟨stream', read, flat⟩ := readHeader_more flat read
      obtain ⟨between', taken, flat⟩ := Inflow.readExact_more flat taken
      obtain ⟨rest', later, behind⟩ := ih flat
      exact ⟨rest', .cons read more taken later, behind⟩

theorem Reading.congr (reading : Reading auth s ps rest) (flat : s'.flatten = s.flatten) :
    ∃ rest', Reading auth s' ps rest' ∧ rest'.flatten = rest.flatten := by
  simpa using reading.more (flat.trans (List.append_nil _).symm)

/-! ## What was written -/

/-- What was written under a secret is read under the same one. -/
theorem reading_of_written (announced : Announced front)
    (written : writeAll auth (front ++ [(.done dump, [])]) = ⟨bytes, .ok ()⟩)
    (flat : s.flatten = bytes ++ behind) :
    ∃ rest, Reading auth s (front ++ [(.done dump, [])]) rest ∧ rest.flatten = behind := by
  induction front generalizing s bytes with
  | nil =>
      obtain ⟨frame, later, header, nothing, rfl⟩ := writeAll_cons written
      cases nothing
      rw [List.append_nil, List.append_nil] at flat
      obtain ⟨rest, read, flat⟩ := readHeader_written header flat
      exact ⟨rest, .last read rfl, flat⟩
  | cons p front ih =>
      obtain ⟨header, content⟩ := p
      obtain ⟨⟨more, length⟩, others⟩ := List.forall_mem_cons.1 announced
      obtain ⟨frame, later, first, second, rfl⟩ := writeAll_cons written
      rw [List.append_assoc] at flat
      obtain ⟨stream, read, flat⟩ := readHeader_written first flat
      rw [List.append_assoc] at flat
      obtain ⟨between, taken, flat⟩ := Inflow.readExact_front flat length
      obtain ⟨rest, reading, flat⟩ := ih others second flat
      exact ⟨rest, .cons read more taken reading, flat⟩

/-- Whatever is lost at the end, what is left is not read to an end, under no secret. -/
theorem not_lost_of_reading {lost : Bytes} (announced : Announced front)
    (written : writeAll auth (front ++ [(.done dump, [])]) = ⟨bytes, .ok ()⟩)
    (cut : s.flatten ++ lost = bytes) (reading : Reading other s ps rest) : lost = [] := by
  induction front generalizing s bytes ps with
  | nil =>
      obtain ⟨frame, later, header, nothing, rfl⟩ := writeAll_cons written
      cases nothing
      cases reading with
      | last read last => exact (List.append_eq_nil_iff.1 (readHeader_of_cut header cut read).2).2
      | cons read more taken later =>
          obtain ⟨rfl, _⟩ := readHeader_of_cut header cut read
          cases more
  | cons p front ih =>
      obtain ⟨header, content⟩ := p
      obtain ⟨⟨more, length⟩, others⟩ := List.forall_mem_cons.1 announced
      obtain ⟨frame, later, first, second, rfl⟩ := writeAll_cons written
      cases reading with
      | last read last =>
          obtain ⟨rfl, _⟩ := readHeader_of_cut first cut read
          rw [more] at last
          cases last
      | cons read _ taken reading =>
          obtain ⟨rfl, cut⟩ := readHeader_of_cut first cut read
          obtain ⟨flat, length'⟩ := Inflow.flatten_of_readExact taken
          rw [flat, List.append_assoc] at cut
          exact ih others second (List.append_inj cut (length'.trans length.symm)).2 reading

/-! ## What is received -/

section

variable {root : Path} {t t' next : Intake} {done : Option String}

/-- What is read of an accepted header is followed by what it announced. -/
theorem taken_of_apply (h : Intake.apply root t header = (.ok done, t')) :
    done = header.completed? ∧ header.contentLength ≤ t.stream.flatten.length ∧
      t'.stream.flatten = t.stream.flatten.drop header.contentLength := by
  cases headerReceipt h with
  | @file x name size _ _ r _ _ received same =>
      cases r <;> cases same
      cases fileReceipt received with
      | @named opened s' place disk final register made created taken renamed =>
          have stream := Intake.stream_makeDirectory (x.pathIn root) t
          rw [made] at stream
          obtain ⟨outcome, rest⟩ :=
            takeContent_stream place size.toNat Crc32.start ⟨disk, opened.stream⟩
          rw [taken] at outcome rest
          dsimp only at outcome rest stream
          rw [stream] at outcome rest
          refine ⟨rfl, ?_, rest⟩
          unfold arrivedOf at outcome
          split at outcome
          · assumption
          · cases outcome
  | @parentLink x pointsTo _ r _ _ placed same =>
      cases r <;> cases same
      have stream := Intake.stream_placeLink (x.pathIn root) pointsTo t
      rw [placed] at stream
      exact ⟨rfl, Nat.zero_le _, congrArg List.flatten stream⟩
  | @done x _ r _ made same =>
      cases r <;> cases same
      have stream := Intake.stream_makeDirectory (x.pathIn root) t
      rw [made] at stream
      exact ⟨rfl, Nat.zero_le _, congrArg List.flatten stream⟩

/-- How a dump can have been received. -/
inductive Taking (auth : Auth) (root : Path) :
    Intake → List (Header × Bytes) → String → Intake → Prop
  | last {s next : Intake} {stream : Inflow} {header : Header} {dump : String}
      (read : readHeader auth s.stream = .ok (header, stream))
      (applied : Intake.apply root ⟨s.disk, stream⟩ header = (.ok (some dump), next)) :
      Taking auth root s [(header, [])] dump next
  | cons {s next s' : Intake} {stream : Inflow} {header : Header} {dump : String}
      {ps : List (Header × Bytes)} (read : readHeader auth s.stream = .ok (header, stream))
      (applied : Intake.apply root ⟨s.disk, stream⟩ header = (.ok none, next))
      (later : Taking auth root next ps dump s') :
      Taking auth root s ((header, stream.flatten.take header.contentLength) :: ps) dump s'

theorem taking_of_receive (h : Intake.receive auth root t = (.ok dump, t')) :
    ∃ ps, Taking auth root t ps dump t' := by
  fun_induction Intake.receive auth root t with
  | case1 => cases h
  | case2 => cases h
  | case3 t header stream read name next applied =>
      cases h
      exact ⟨_, .last read applied⟩
  | case4 t header stream read next applied ih =>
      obtain ⟨ps, later⟩ := ih h
      exact ⟨_, .cons read applied later⟩

/-- A dump that was received is a stream that was read to its end. -/
theorem Taking.reading (taking : Taking auth root t ps dump t') :
    ∃ rest, Reading auth t.stream ps rest ∧ rest.flatten = t'.stream.flatten := by
  induction taking with
  | @last t next stream header dump read applied =>
      obtain ⟨last, _, flat⟩ := taken_of_apply applied
      cases header with
      | file | parentLink => cases last
      | done d => exact ⟨stream, .last read rfl, flat.symm⟩
  | @cons t next t' stream header dump ps read applied _ ih =>
      obtain ⟨more, enough, flat⟩ := taken_of_apply applied
      obtain ⟨between, taken, behind⟩ := Inflow.readExact_front
        (List.take_append_drop header.contentLength stream.flatten).symm
        (List.length_take_of_le enough)
      obtain ⟨rest, reading, final⟩ := ih
      obtain ⟨rest', reading, same⟩ := reading.congr (behind.trans flat.symm)
      exact ⟨rest', .cons read more.symm taken reading, same.trans final⟩

end

end LiveMigration.Transfer
