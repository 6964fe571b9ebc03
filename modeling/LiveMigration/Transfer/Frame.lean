import LiveMigration.Transfer.Header

/-!
Frames: a text with its length in front, in four bytes with the highest first. A frame
carries a header with its tag, or the verdict of the receiver in the end. Bytes come from the
network in pieces; what a frame says does not depend on where they were cut.
-/

namespace LiveMigration.Transfer

open Json

/-- What is still to come on a connection, in the pieces in which it arrives. -/
abbrev Inflow := List Bytes

namespace Inflow

def size (s : Inflow) : Nat := s.flatten.length

@[simp] theorem size_nil : size [] = 0 := rfl

@[simp] theorem size_cons (piece : Bytes) (rest : Inflow) :
    size (piece :: rest) = piece.length + size rest := by
  simp [size]

def readExact : Nat → Inflow → Option (Bytes × Inflow)
  | 0, s => some ([], s)
  | _ + 1, [] => none
  | n + 1, piece :: rest =>
    if n + 1 ≤ piece.length then some (piece.take (n + 1), piece.drop (n + 1) :: rest)
    else (readExact (n + 1 - piece.length) rest).map fun (bytes, rest) => (piece ++ bytes, rest)

theorem size_of_readExact {n : Nat} {s rest : Inflow} {bytes : Bytes}
    (h : readExact n s = some (bytes, rest)) : rest.size + n = s.size := by
  induction s generalizing n bytes with
  | nil =>
    cases n with
    | zero => cases h; simp
    | succ n => cases h
  | cons piece s ih =>
    cases n with
    | zero => cases h; simp
    | succ n =>
      unfold readExact at h
      split at h
      · cases h
        simp only [size_cons, List.length_drop]
        omega
      · obtain ⟨⟨b, r⟩, hr, he⟩ := Option.map_eq_some_iff.1 h
        cases he
        have := ih hr
        simp only [size_cons]
        omega

/-- What one read of at most so many bytes gives: nothing only at the end. -/
def readSome (most : Nat) : Inflow → Bytes × Inflow
  | [] => ([], [])
  | piece :: rest =>
    if piece.isEmpty then readSome most rest
    else (piece.take most, piece.drop most :: rest)

theorem size_readSome (most : Nat) (s : Inflow) :
    (s.readSome most).2.size + (s.readSome most).1.length = s.size := by
  induction s with
  | nil => rfl
  | cons piece rest ih =>
    unfold readSome
    split
    · simp_all
    · simp only [size_cons, List.length_drop, List.length_take]
      omega

theorem length_readSome_le (most : Nat) (s : Inflow) : (s.readSome most).1.length ≤ most := by
  induction s with
  | nil => simp [readSome]
  | cons piece rest ih =>
    unfold readSome
    split
    · exact ih
    · simp only [List.length_take]
      omega

end Inflow

def lengthBytes (n : Nat) : Bytes := Sha256.bigEndian 4 n

def lengthOf (bytes : Bytes) : Nat := bytes.foldl (fun n b => n * 256 + b.toNat) 0

def pack (content : Bytes) : Except TransferError Bytes :=
  if maxHeader < content.length then .error (.malformed (.tooLong content.length))
  else .ok (lengthBytes content.length ++ content)

def unpack (s : Inflow) : Except TransferError (Bytes × Inflow) :=
  match s.readExact 4 with
  | none => .error (.io .readingLength .earlyEnd)
  | some (lengthField, s) =>
    let length := lengthOf lengthField
    if maxHeader < length then .error (.malformed (.tooLong length))
    else
      match s.readExact length with
      | none => .error (.io .readingFrame .earlyEnd)
      | some (content, s) => .ok (content, s)

theorem size_of_unpack {s rest : Inflow} {content : Bytes}
    (h : unpack s = .ok (content, rest)) : rest.size < s.size := by
  unfold unpack at h
  split at h
  · cases h
  · rename_i hp
    have h4 := Inflow.size_of_readExact hp
    dsimp only at h
    split at h
    · cases h
    · split at h
      · cases h
      · rename_i hc
        have hn := Inflow.size_of_readExact hc
        cases h
        omega

structure Frame where
  header : Header
  tag : Option String
  deriving DecidableEq, Repr

namespace Frame

def toTree (f : Frame) : Tree :=
  record (("header", f.header.toTree) ::
    match f.tag with
    | some tag => [("mac", text tag)]
    | none => [])

structure Slots where
  header : Option Header
  tag : Option (Option String)

def take (slots : Slots) (key : String) (t : Tree) : Decoded Slots :=
  if key = "header" then do
    return { slots with header := ← fill key slots.header (Header.ofTree t) }
  else if key = "mac" then do
    return { slots with tag := ← fill key slots.tag (asOptional asText t) }
  else .ok slots

/-- A missing tag is none. -/
def ofTree : Tree → Decoded Frame
  | .object members whole => do
    let slots ← foldMembers take whole ⟨none, none⟩ members
    return ⟨← required "header" slots.header, slots.tag.getD none⟩
  | .array items whole => do
    let (header, items) ← nextItem whole Header.ofTree items
    let (tag, items) ← nextItemOr whole none (asOptional asText) items
    noMoreItems .text whole items
    return ⟨header, tag⟩
  | t => .error (wrongType t)

end Frame

def readAs (decode : Tree → Decoded α) (s : Inflow) : Except TransferError (α × Inflow) := do
  let (content, s) ← unpack s
  match decodeText decode content with
  | .ok v => return (v, s)
  | .error e => .error (.malformed (.undecodable e))

theorem size_of_readAs {decode : Tree → Decoded α} {s rest : Inflow} {v : α}
    (h : readAs decode s = .ok (v, rest)) : rest.size < s.size := by
  unfold readAs at h
  cases hu : unpack s with
  | error e => simp [hu, bind, Except.bind] at h
  | ok r =>
    obtain ⟨content, s'⟩ := r
    simp only [hu, bind, Except.bind] at h
    split at h
    · cases h
      exact size_of_unpack hu
    · cases h

def writeHeader (auth : Auth) (h : Header) : Except TransferError Bytes :=
  pack (write (Frame.toTree ⟨h, auth.tag h⟩))

/-- The next header, if its seal is right. -/
def readHeader (auth : Auth) (s : Inflow) : Except TransferError (Header × Inflow) := do
  let (frame, s) ← readAs Frame.ofTree s
  if auth.accepts frame.header frame.tag then return (frame.header, s)
  else .error .unauthenticated

theorem size_of_readHeader {auth : Auth} {s rest : Inflow} {h : Header}
    (hr : readHeader auth s = .ok (h, rest)) : rest.size < s.size := by
  unfold readHeader at hr
  cases hf : readAs Frame.ofTree s with
  | error e => simp [hf, bind, Except.bind] at hr
  | ok r =>
    obtain ⟨frame, s'⟩ := r
    simp only [hf, bind, Except.bind] at hr
    split at hr
    · cases hr
      exact size_of_readAs hf
    · cases hr

structure Verdict where
  ok : Bool
  reason : Option String
  deriving DecidableEq, Repr

namespace Verdict

def toTree (v : Verdict) : Tree :=
  record (("ok", .bool v.ok) ::
    match v.reason with
    | some reason => [("reason", text reason)]
    | none => [])

structure Slots where
  ok : Option Bool
  reason : Option (Option String)

def take (slots : Slots) (key : String) (t : Tree) : Decoded Slots :=
  if key = "ok" then do
    return { slots with ok := ← fill key slots.ok (asBool t) }
  else if key = "reason" then do
    return { slots with reason := ← fill key slots.reason (asOptional asText t) }
  else .ok slots

def ofTree : Tree → Decoded Verdict
  | .object members whole => do
    let slots ← foldMembers take whole ⟨none, none⟩ members
    return ⟨← required "ok" slots.ok, slots.reason.getD none⟩
  | .array items whole => do
    let (ok, items) ← nextItem whole asBool items
    let (reason, items) ← nextItemOr whole none (asOptional asText) items
    noMoreItems .text whole items
    return ⟨ok, reason⟩
  | t => .error (wrongType t)

def ofOutcome : Except TransferError String → Verdict
  | .ok _ => ⟨true, none⟩
  | .error e => ⟨false, some e.message⟩

/-- What is written back; a verdict that is too long for a frame is not. -/
def encode (v : Verdict) : Bytes :=
  match pack (write v.toTree) with
  | .ok bytes => bytes
  | .error _ => []

end Verdict

end LiveMigration.Transfer
