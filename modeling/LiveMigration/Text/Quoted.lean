import LiveMigration.Text.Unprintable

/-!
A single character shown between quotes, so that the reader of an error message can tell
which one it was: control characters and characters without a glyph appear as escapes.
-/

namespace LiveMigration.Text

def hexDigits (n : Nat) : String := String.ofList (Nat.toDigits 16 n)

def escapedChar (c : Char) : String :=
  if c = '\x00' then "\\0"
  else if c = '\t' then "\\t"
  else if c = '\r' then "\\r"
  else if c = '\n' then "\\n"
  else if c = '\x27' then "\\'"
  else if c = '\\' then "\\\\"
  else if c.toNat < 0x20 ∨ c.toNat = 0x7F ∨ isUnprintable c then
    "\\u\x7b" ++ hexDigits c.toNat ++ "\x7d"
  else c.toString

def quotedChar (c : Char) : String := "'" ++ escapedChar c ++ "'"

end LiveMigration.Text
