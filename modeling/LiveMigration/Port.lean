import LiveMigration.Validation

/-!
TCP ports that a node may announce: port zero is reserved and never one of them.
-/

namespace LiveMigration

structure Port where
  number : UInt16
  ne_zero : number ≠ 0
  deriving DecidableEq, Repr

namespace Port

def ofNumber (n : UInt16) : Except ValidationError Port :=
  if h : n = 0 then .error (.invalidPort n .reservedPort) else .ok ⟨n, h⟩

/-- A port number in decimal, with a plus sign if need be. -/
def numberOfText? (cs : List Char) : Option UInt16 :=
  let digits := match cs with
    | '+' :: digits => digits
    | digits => digits
  let n := Nat.ofDigitChars 10 digits 0
  if !digits.isEmpty && digits.all Char.isDigit && n < UInt16.size then some (UInt16.ofNat n)
  else none

def toText (p : Port) : String := toString p.number.toNat

theorem ofNumber_number (p : Port) : ofNumber p.number = .ok p := by
  simp [ofNumber, p.ne_zero]

theorem ofNumber_eq_ok_iff {n : UInt16} {p : Port} : ofNumber n = .ok p ↔ p.number = n := by
  constructor
  · intro h
    unfold ofNumber at h
    split at h
    · cases h
    · cases h
      rfl
  · rintro rfl
    exact ofNumber_number p

end Port

end LiveMigration
