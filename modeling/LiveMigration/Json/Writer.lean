import LiveMigration.Json.Tree

/-!
Writing JSON in its compact form: no blanks, members in the order given, and in strings only
what must be escaped is escaped, with the short escapes where there are any. Strings are
escaped byte by byte, since every byte that needs it is ASCII.
-/

namespace LiveMigration.Json

def hexByte (n : Nat) : UInt8 := UInt8.ofNat (if n < 10 then 0x30 + n else 0x61 + (n - 10))

def escapeByte (b : UInt8) : Bytes :=
  if b = 0x22 then [0x5C, 0x22]
  else if b = 0x5C then [0x5C, 0x5C]
  else if b = 0x08 then [0x5C, 0x62]
  else if b = 0x0C then [0x5C, 0x66]
  else if b = 0x0A then [0x5C, 0x6E]
  else if b = 0x0D then [0x5C, 0x72]
  else if b = 0x09 then [0x5C, 0x74]
  else if b < 0x20 then [0x5C, 0x75, 0x30, 0x30, hexByte (b.toNat / 16), hexByte (b.toNat % 16)]
  else [b]

def quote (s : Bytes) : Bytes := 0x22 :: s.flatMap escapeByte ++ [0x22]

def digitByte (c : Char) : UInt8 := UInt8.ofNat c.toNat

def writeNatural (n : Nat) : Bytes := (Nat.toDigits 10 n).map digitByte

def writeNumber : Number → Bytes
  | .natural n => writeNatural n
  | .negative n => 0x2D :: writeNatural n
  | .other | .beyond => []

mutual

def write : Tree → Bytes
  | .null => Bytes.ofText "null"
  | .bool true => Bytes.ofText "true"
  | .bool false => Bytes.ofText "false"
  | .number n => writeNumber n
  | .string s => quote (Bytes.ofText (s.getD ""))
  | .array items _ => 0x5B :: writeItems items ++ [0x5D]
  | .object members _ => 0x7B :: writeMembers members ++ [0x7D]
  | .broken => []

def writeItems : List Tree → Bytes
  | [] => []
  | [v] => write v
  | v :: rest => write v ++ 0x2C :: writeItems rest

def writeMembers : List (Option String × Tree) → Bytes
  | [] => []
  | [(key, v)] => quote (Bytes.ofText (key.getD "")) ++ 0x3A :: write v
  | (key, v) :: rest =>
    quote (Bytes.ofText (key.getD "")) ++ 0x3A :: write v ++ 0x2C :: writeMembers rest

end

def record (members : List (String × Tree)) : Tree :=
  .object (members.map fun (key, v) => (some key, v)) true

def text (s : String) : Tree := .string (some s)

def natural (n : Nat) : Tree := .number (.natural n)

end LiveMigration.Json
