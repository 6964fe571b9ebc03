import LiveMigration.Proofs.Transfer.Stream

/-!
Transmissions with and without a shared secret. What was written is read again, and only as a
whole. Under a secret nothing is done for a header whose tag is not the code of that header,
nor for anything behind it.
-/

namespace LiveMigration.Transfer

/-- The tag of a frame is the code of its header, in the form in which that would be written. -/
def Sealed (code : Bytes → Bytes) (f : Frame) : Prop :=
  ∃ tag, f.tag = some tag ∧ Hex.decode? tag = some (code f.header.encode)

/-- The effects of frames that are read one after another, all of them sealed. -/
inductive Applied (code : Bytes → Bytes) (root : Path) : Intake → List Frame → Intake → Prop
  | start {s : Intake} : Applied code root s [] s
  | frame {s next s' : Intake} {f : Frame} {fs : List Frame} {stream : Inflow}
      (read : readAs Frame.ofTree s.stream = .ok (f, stream)) (isSealed : Sealed code f)
      (applied : Intake.apply root ⟨s.disk, stream⟩ f.header = (.ok none, next))
      (later : Applied code root next fs s') : Applied code root s (f :: fs) s'

/-- What comes of the next frame if it is the last one. -/
inductive Ends (code : Bytes → Bytes) (root : Path) (s : Intake) :
    Except TransferError String × Intake → Prop
  | unreadable {e : TransferError} (failed : readAs Frame.ofTree s.stream = .error e) :
      Ends code root s (.error e, s)
  | unsealed {f : Frame} {stream : Inflow} (read : readAs Frame.ofTree s.stream = .ok (f, stream))
      (notSealed : ¬ Sealed code f) : Ends code root s (.error .unauthenticated, s)
  | refused {f : Frame} {stream : Inflow} {e : TransferError} {next : Intake}
      (read : readAs Frame.ofTree s.stream = .ok (f, stream)) (isSealed : Sealed code f)
      (applied : Intake.apply root ⟨s.disk, stream⟩ f.header = (.error e, next)) :
      Ends code root s (.error e, next)
  | complete {f : Frame} {stream : Inflow} {dump : String} {next : Intake}
      (read : readAs Frame.ofTree s.stream = .ok (f, stream)) (isSealed : Sealed code f)
      (applied : Intake.apply root ⟨s.disk, stream⟩ f.header = (.ok (some dump), next)) :
      Ends code root s (.ok dump, next)

variable {code : Bytes → Bytes} {root : Path} {s s' : Intake} {f : Frame} {fs : List Frame}
  {header : Header} {stream : Inflow}

theorem sealed_of_readHeader (read : readHeader (some code) s.stream = .ok (header, stream)) :
    ∃ f, readAs Frame.ofTree s.stream = .ok (f, stream) ∧ f.header = header ∧ Sealed code f := by
  obtain ⟨f, framed, same, accepted⟩ := readAs_of_readHeader read
  exact ⟨f, framed, same, Auth.accepts_iff.1 accepted⟩

theorem readHeader_sealed (read : readAs Frame.ofTree s.stream = .ok (f, stream))
    (isSealed : Sealed code f) : readHeader (some code) s.stream = .ok (f.header, stream) := by
  rw [readHeader_of_readAs read, if_pos (Auth.accepts_iff.2 isSealed)]

theorem readHeader_unsealed (read : readAs Frame.ofTree s.stream = .ok (f, stream))
    (notSealed : ¬ Sealed code f) :
    readHeader (some code) s.stream = .error .unauthenticated := by
  rw [readHeader_of_readAs read, if_neg fun accepted => notSealed (Auth.accepts_iff.1 accepted)]

theorem Applied.receive (applied : Applied code root s fs s') :
    Intake.receive (some code) root s = Intake.receive (some code) root s' := by
  induction applied with
  | start => rfl
  | frame read isSealed applied _ ih =>
      rw [receive_of_header (readHeader_sealed read isSealed), applied]
      exact ih

/-- Whatever is received, effects of sealed frames are all that comes of it. -/
theorem applied_of_receive (code : Bytes → Bytes) (root : Path) (s : Intake) :
    ∃ fs s', Applied code root s fs s' ∧
      Ends code root s' (Intake.receive (some code) root s) := by
  generalize secret : some code = auth
  fun_induction Intake.receive auth root s with
  | case1 s e failed =>
      subst secret
      refine ⟨[], s, .start, ?_⟩
      cases read : readAs Frame.ofTree s.stream with
      | error e' =>
          rw [readHeader, read] at failed
          cases failed
          exact .unreadable read
      | ok framed =>
          obtain ⟨f, stream⟩ := framed
          by_cases isSealed : Sealed code f
          · rw [readHeader_sealed read isSealed] at failed
            cases failed
          · rw [readHeader_unsealed read isSealed] at failed
            cases failed
            exact .unsealed read isSealed
  | case2 s header stream read e next applied =>
      subst secret
      obtain ⟨f, framed, rfl, isSealed⟩ := sealed_of_readHeader read
      exact ⟨[], s, .start, .refused framed isSealed applied⟩
  | case3 s header stream read dump next applied =>
      subst secret
      obtain ⟨f, framed, rfl, isSealed⟩ := sealed_of_readHeader read
      exact ⟨[], s, .start, .complete framed isSealed applied⟩
  | case4 s header stream read next applied ih =>
      subst secret
      obtain ⟨f, framed, rfl, isSealed⟩ := sealed_of_readHeader read
      obtain ⟨fs, s', later, ends⟩ := ih
      exact ⟨f :: fs, s', .frame framed isSealed applied later, ends⟩

/-- What was written as a whole, with a shared secret or without, is read under the same secret as
it was written, however it was cut, and if any of it is missing at the end then neither a reader
nor a receiver takes it for complete. Under a secret, all that a receiver does are the effects of
frames with the right tag, and what is not tagged so ends the reception, with the disk as it was
before. -/
theorem sealed_transmission :
    (∀ (auth : Auth) (front : List (Header × Bytes)) (dump : String) (bytes : Bytes),
      Announced front →
      writeAll auth (front ++ [(.done dump, [])]) = ⟨bytes, .ok ()⟩ →
      (∀ (s : Inflow) (behind : Bytes), s.flatten = bytes ++ behind →
        ∃ rest, readAll auth s = some (front ++ [(.done dump, [])], rest) ∧
          rest.flatten = behind) ∧
      ∀ (s : Inflow) (lost : Bytes), s.flatten ++ lost = bytes → lost ≠ [] →
        ∀ (other : Auth), readAll other s = none ∧
          ∀ (root : Path) (disk : Disk),
            ∃ e, (Intake.receive other root ⟨disk, s⟩).1 = .error e) ∧
    ∀ (code : Bytes → Bytes) (root : Path) (s : Intake),
      (∃ fs s', Applied code root s fs s' ∧
        Ends code root s' (Intake.receive (some code) root s)) ∧
      ∀ fs s' f stream, Applied code root s fs s' →
        readAs Frame.ofTree s'.stream = .ok (f, stream) → ¬ Sealed code f →
        Intake.receive (some code) root s = (.error .unauthenticated, s') := by
  refine ⟨fun auth front dump bytes announced written => ⟨fun s behind flat => ?_, ?_⟩,
    fun code root s => ⟨applied_of_receive code root s, ?_⟩⟩
  · obtain ⟨rest, reading, flat⟩ := reading_of_written announced written flat
    exact ⟨rest, readAll_eq_some_iff.2 reading, flat⟩
  · intro s lost cut some other
    have cannot {ps : List (Header × Bytes)} {rest : Inflow} : ¬ Reading other s ps rest :=
      fun reading => some (not_lost_of_reading announced written cut reading)
    refine ⟨?_, fun root disk => ?_⟩
    · rw [Option.eq_none_iff_forall_ne_some]
      exact fun read same => cannot (readAll_eq_some_iff.1 same)
    · cases received : Intake.receive other root ⟨disk, s⟩ with
      | mk outcome after =>
          cases outcome with
          | error e => exact ⟨e, rfl⟩
          | ok name =>
              obtain ⟨ps, taking⟩ := taking_of_receive received
              obtain ⟨rest, reading, _⟩ := taking.reading
              exact absurd reading cannot
  · intro fs s' f stream applied read notSealed
    rw [applied.receive, receive_of_error (readHeader_unsealed read notSealed)]

/-- A file to be sent. -/
def sampleFront : List (Header × Bytes) := [(.file "d1" "a" 2 0, [0x31, 0x32])]

def sampleSecret : Auth := .ofSecret (some "s")

/-- Cut in two the transmission is read, without its last byte it is not, and a header that was
written without the secret is not heeded. -/
theorem sealed_transmission_sample :
    let s : Intake := ⟨.ofTree .empty [], [(writeAll none [(.done "d1", [])]).bytes]⟩
    (∃ bytes, writeAll sampleSecret (sampleFront ++ [(.done "d1", [])]) = ⟨bytes, .ok ()⟩ ∧
      (∃ rest, readAll sampleSecret [bytes.take 9, bytes.drop 9] =
        some (sampleFront ++ [(.done "d1", [])], rest)) ∧
      readAll sampleSecret [bytes.dropLast] = none) ∧
    Intake.receive sampleSecret ⟨[Path.slash]⟩ s = (.error .unauthenticated, s) := by
  intro s
  obtain ⟨codec, authentication⟩ := sealed_transmission
  refine ⟨?_, ?_⟩
  · have announced : Announced sampleFront := by decide +kernel
    obtain ⟨bytes, written, some⟩ : ∃ bytes,
        writeAll sampleSecret (sampleFront ++ [(.done "d1", [])]) = ⟨bytes, .ok ()⟩ ∧
          bytes ≠ [] := by
      have out : (writeAll sampleSecret (sampleFront ++ [(.done "d1", [])])).result = .ok () ∧
          (writeAll sampleSecret (sampleFront ++ [(.done "d1", [])])).bytes ≠ [] := by
        decide +kernel
      generalize writeAll sampleSecret (sampleFront ++ [(.done "d1", [])]) = sent at out
      obtain ⟨bytes, result⟩ := sent
      obtain ⟨rfl, some⟩ := out
      exact ⟨bytes, rfl, some⟩
    obtain ⟨whole, part⟩ := codec sampleSecret sampleFront "d1" bytes announced written
    obtain ⟨rest, read, _⟩ := whole [bytes.take 9, bytes.drop 9] [] (by simp)
    have cut : [bytes.dropLast].flatten ++ [bytes.getLast some] = bytes := by
      rw [List.flatten_singleton]
      exact List.dropLast_append_getLast some
    exact ⟨bytes, written, ⟨rest, read⟩, (part _ _ cut (List.cons_ne_nil _ _) _).1⟩
  · have framed : ∃ stream, readAs Frame.ofTree s.stream = .ok (⟨.done "d1", none⟩, stream) :=
      ⟨[[]], by decide +kernel⟩
    obtain ⟨stream, framed⟩ := framed
    exact (authentication (hmacSha256 (Bytes.ofText "s")) ⟨[Path.slash]⟩ s).2 [] s _ stream
      .start framed nofun

end LiveMigration.Transfer
