import LiveMigration.Text.Bytes

/-!
Bytes in base sixteen: two digits a byte, written in lower case and read in either case.
-/

namespace LiveMigration.Hex

def digit (n : Nat) : Char := (Nat.digitChar n)

def encode (bytes : Bytes) : String :=
  String.ofList (bytes.flatMap fun b => [digit (b.toNat / 16), digit (b.toNat % 16)])

def value? (c : Char) : Option Nat :=
  if '0' ≤ c ∧ c ≤ '9' then some (c.toNat - '0'.toNat)
  else if 'a' ≤ c ∧ c ≤ 'f' then some (c.toNat - 'a'.toNat + 10)
  else if 'A' ≤ c ∧ c ≤ 'F' then some (c.toNat - 'A'.toNat + 10)
  else none

def decodeChars : List Char → Option Bytes
  | [] => some []
  | [_] => none
  | a :: b :: rest => do
    let high ← value? a
    let low ← value? b
    let bytes ← decodeChars rest
    return UInt8.ofNat (high * 16 + low) :: bytes

def decode? (s : String) : Option Bytes := decodeChars s.toList

end LiveMigration.Hex
