import LiveMigration.Dump.Basic

/-!
Dump names. The name of a dump is the letter of its kind followed by its sequence number in
decimal, without leading zeros; it is the name of the dump's directory and its identity on
the wire. The offset is not part of it.
-/

namespace LiveMigration.Dump

inductive NameFault
  | empty
  | unknownLetter (c : Char)
  | notDecimal
  | padded
  | tooLarge
  deriving DecidableEq, Repr

def NameFault.message : NameFault → String
  | empty => "empty name"
  | unknownLetter c => "unknown kind prefix '" ++ c.toString ++ "'"
  | notDecimal => "sequence must be a decimal number"
  | padded => "sequence must not be zero-padded"
  | tooLarge => "number too large to fit in target type"

structure NameError where
  name : String
  fault : NameFault
  deriving DecidableEq, Repr

def NameError.message (e : NameError) : String :=
  s!"Malformed dump name '{e.name}': " ++ e.fault.message

def name (d : Dump) : String := d.kind.letter.toString ++ toString d.sequence.toNat

/-- The dump as seen from a sibling directory. -/
def parentPath (d : Dump) : String := "../" ++ d.name

def sequenceOfDigits (digits : List Char) : Except NameFault UInt64 :=
  if digits.isEmpty ∨ ¬ digits.all Char.isDigit then .error .notDecimal
  else if 1 < digits.length ∧ digits.head? = some '0' then .error .padded
  else
    let n := Nat.ofDigitChars 10 digits 0
    if n < UInt64.size then .ok (UInt64.ofNat n) else .error .tooLarge

def ofChars : List Char → Except NameFault Dump
  | [] => .error .empty
  | c :: digits =>
    match Kind.ofLetter? c with
    | none => .error (.unknownLetter c)
    | some kind => (sequenceOfDigits digits).map fun sequence => ⟨kind, sequence, 0⟩

/-- The dump with a given name, at offset zero. -/
def ofName (s : String) : Except NameError Dump :=
  match ofChars s.toList with
  | .ok d => .ok d
  | .error fault => .error ⟨s, fault⟩

theorem offset_of_ofChars {cs : List Char} {d : Dump} (h : ofChars cs = .ok d) :
    d.offset = 0 := by
  unfold ofChars at h
  split at h
  · cases h
  · split at h
    · cases h
    · rename_i digits _ kind _
      cases hs : sequenceOfDigits digits with
      | error => simp [hs, Except.map] at h
      | ok n =>
        simp only [hs, Except.map] at h
        cases h
        rfl

theorem ofName_eq_ok_iff {s : String} {d : Dump} :
    ofName s = .ok d ↔ ofChars s.toList = .ok d := by
  unfold ofName
  split <;> simp_all

theorem offset_of_ofName {s : String} {d : Dump} (h : ofName s = .ok d) : d.offset = 0 :=
  offset_of_ofChars (ofName_eq_ok_iff.1 h)

def ofNames : List String → Except NameError (List Dump)
  | [] => .ok []
  | name :: names => do
    let d ← ofName name
    let ds ← ofNames names
    return d :: ds

theorem ofNames_cons_eq_ok {name : String} {names : List String} {ds : List Dump}
    (h : ofNames (name :: names) = .ok ds) :
    ∃ d rest, ofName name = .ok d ∧ ofNames names = .ok rest ∧ ds = d :: rest := by
  unfold ofNames at h
  cases hd : ofName name with
  | error => simp [hd, bind, Except.bind] at h
  | ok d =>
    cases hds : ofNames names with
    | error => simp [hd, hds, bind, Except.bind] at h
    | ok rest =>
      simp only [hd, hds, bind, Except.bind, pure, Except.pure] at h
      cases h
      exact ⟨d, rest, rfl, rfl, rfl⟩

theorem offset_of_mem_ofNames {names : List String} {ds : List Dump}
    (h : ofNames names = .ok ds) : ∀ d ∈ ds, d.offset = 0 := by
  induction names generalizing ds with
  | nil => cases h; simp
  | cons name names ih =>
    obtain ⟨d, rest, hd, hds, rfl⟩ := ofNames_cons_eq_ok h
    intro x hx
    rcases List.mem_cons.1 hx with rfl | hx
    · exact offset_of_ofName hd
    · exact ih hds x hx

theorem length_ofNames {names : List String} {ds : List Dump}
    (h : ofNames names = .ok ds) : ds.length = names.length := by
  induction names generalizing ds with
  | nil => cases h; rfl
  | cons name names ih =>
    obtain ⟨_, _, _, hds, rfl⟩ := ofNames_cons_eq_ok h
    simp [ih hds]

end LiveMigration.Dump
