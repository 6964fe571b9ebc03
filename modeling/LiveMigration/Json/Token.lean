import LiveMigration.Text.Bytes

/-!
JSON tokens. The text is read byte by byte by a machine whose state says what it is in the
middle of; a text that stops being JSON ends in the token `broken`. A string whose bytes or
escapes spell no text is a token all the same, since it does no harm where it is skipped.
-/

namespace LiveMigration.Json

inductive Number
  /-- An integer from 0 to 2^64 - 1. -/
  | natural (n : Nat)
  /-- An integer from -2^63 to -1, given by its absolute value. -/
  | negative (n : Nat)
  | other
  | beyond
  deriving DecidableEq, Repr

inductive Token
  | openBrace
  | closeBrace
  | openBracket
  | closeBracket
  | comma
  | colon
  | null
  | bool (b : Bool)
  | number (n : Number)
  | string (s : Option String)
  | broken
  deriving DecidableEq, Repr

structure Numeral where
  minus : Bool
  mantissa : Nat
  /-- How many digits of the mantissa stand after the point. -/
  places : Nat
  exponentMinus : Bool
  exponent : Nat
  integral : Bool
  deriving DecidableEq, Repr

namespace Numeral

/-- Whether the number rounds to no finite double: `limit` is the midpoint above the largest
one. The number of digits settles all but the close cases. -/
def isBeyond (x : Numeral) : Bool :=
  let limit := Nat.pow 2 1024 - Nat.pow 2 970
  let digits := (Nat.toDigits 10 x.mantissa).length
  let up := if x.exponentMinus then 0 else x.exponent
  let down := x.places + if x.exponentMinus then x.exponent else 0
  if x.mantissa = 0 then false
  else if 400 + down < digits + up then true
  else if digits + up < 300 + down then false
  else limit * Nat.pow 10 (down - up) ≤ x.mantissa * Nat.pow 10 (up - down)

def number (x : Numeral) : Number :=
  if x.integral ∧ ¬ x.minus ∧ x.mantissa < UInt64.size then .natural x.mantissa
  else if x.integral ∧ x.minus ∧ 0 < x.mantissa ∧ x.mantissa ≤ UInt64.size / 2 then
    .negative x.mantissa
  else if x.isBeyond then .beyond
  else .other

end Numeral

inductive NumberPart
  | sign
  | zero
  | whole
  | point
  | fraction
  | exponentMark
  | exponentSign
  | exponent
  deriving DecidableEq, Repr

/-- What the reader is in the middle of. Strings are kept backwards; `ok` says whether they
can still spell a text, and `high` is a leading surrogate that waits for its trailing one. -/
inductive Reading
  | between
  | word (rest : Bytes) (token : Token)
  | string (spelled : Bytes) (high : Option Nat) (ok : Bool)
  | escape (spelled : Bytes) (high : Option Nat) (ok : Bool)
  | unicode (spelled : Bytes) (high : Option Nat) (ok : Bool) (digits value : Nat)
  | number (part : NumberPart) (x : Numeral)
  | dead
  deriving DecidableEq, Repr

def isSpace (b : UInt8) : Bool := b == 0x20 || b == 0x09 || b == 0x0A || b == 0x0D

def digit? (b : UInt8) : Option Nat :=
  if 0x30 ≤ b ∧ b ≤ 0x39 then some (b.toNat - 0x30) else none

def hexDigit? (b : UInt8) : Option Nat :=
  if 0x30 ≤ b ∧ b ≤ 0x39 then some (b.toNat - 0x30)
  else if 0x61 ≤ b ∧ b ≤ 0x66 then some (b.toNat - 0x61 + 10)
  else if 0x41 ≤ b ∧ b ≤ 0x46 then some (b.toNat - 0x41 + 10)
  else none

def plainEscape? (b : UInt8) : Option UInt8 :=
  if b = 0x22 then some 0x22
  else if b = 0x5C then some 0x5C
  else if b = 0x2F then some 0x2F
  else if b = 0x62 then some 0x08
  else if b = 0x66 then some 0x0C
  else if b = 0x6E then some 0x0A
  else if b = 0x72 then some 0x0D
  else if b = 0x74 then some 0x09
  else none

/-- The bytes of a character, last byte first. -/
def spellBackwards (n : Nat) : Bytes := (String.utf8EncodeChar (Char.ofNat n)).reverse

def beginToken (b : UInt8) : List Token × Reading :=
  if isSpace b then ([], .between)
  else if b = 0x7B then ([.openBrace], .between)
  else if b = 0x7D then ([.closeBrace], .between)
  else if b = 0x5B then ([.openBracket], .between)
  else if b = 0x5D then ([.closeBracket], .between)
  else if b = 0x2C then ([.comma], .between)
  else if b = 0x3A then ([.colon], .between)
  else if b = 0x22 then ([], .string [] none true)
  else if b = 0x6E then ([], .word (Bytes.ofText "ull") .null)
  else if b = 0x74 then ([], .word (Bytes.ofText "rue") (.bool true))
  else if b = 0x66 then ([], .word (Bytes.ofText "alse") (.bool false))
  else if b = 0x2D then ([], .number .sign ⟨true, 0, 0, false, 0, true⟩)
  else
    match digit? b with
    | some 0 => ([], .number .zero ⟨false, 0, 0, false, 0, true⟩)
    | some d => ([], .number .whole ⟨false, d, 0, false, 0, true⟩)
    | none => ([.broken], .dead)

/-- The next part of a number, none where the number ends, `some none` where it is broken. -/
def continueNumber (part : NumberPart) (x : Numeral) (b : UInt8) :
    Option (Option (NumberPart × Numeral)) :=
  let isPoint := b = 0x2E
  let isExponent := b = 0x65 ∨ b = 0x45
  let isSign := b = 0x2B ∨ b = 0x2D
  let broken := some none
  let go (part : NumberPart) (x : Numeral) := some (some (part, x))
  match part with
  | .sign =>
    match digit? b with
    | some 0 => go .zero x
    | some d => go .whole { x with mantissa := d }
    | none => broken
  | .zero =>
    if (digit? b).isSome then broken
    else if isPoint then go .point { x with integral := false }
    else if isExponent then go .exponentMark { x with integral := false }
    else none
  | .whole =>
    match digit? b with
    | some d => go .whole { x with mantissa := x.mantissa * 10 + d }
    | none =>
      if isPoint then go .point { x with integral := false }
      else if isExponent then go .exponentMark { x with integral := false }
      else none
  | .point =>
    match digit? b with
    | some d => go .fraction { x with mantissa := x.mantissa * 10 + d, places := x.places + 1 }
    | none => broken
  | .fraction =>
    match digit? b with
    | some d => go .fraction { x with mantissa := x.mantissa * 10 + d, places := x.places + 1 }
    | none => if isExponent then go .exponentMark x else none
  | .exponentMark =>
    match digit? b with
    | some d => go .exponent { x with exponent := d }
    | none => if isSign then go .exponentSign { x with exponentMinus := b = 0x2D } else broken
  | .exponentSign =>
    match digit? b with
    | some d => go .exponent { x with exponent := d }
    | none => broken
  | .exponent =>
    match digit? b with
    | some d => go .exponent { x with exponent := x.exponent * 10 + d }
    | none => none

def NumberPart.mayEnd : NumberPart → Bool
  | zero | whole | fraction | exponent => true
  | _ => false

/-- Takes up the code unit of a `\u` escape: surrogates come in pairs. -/
def takeUnit (spelled : Bytes) (high : Option Nat) (ok : Bool) (unit : Nat) : Reading :=
  match high with
  | some lead =>
    if 0xDC00 ≤ unit ∧ unit ≤ 0xDFFF then
      .string (spellBackwards (0x10000 + (lead - 0xD800) * 0x400 + (unit - 0xDC00)) ++ spelled)
        none ok
    else .string spelled none false
  | none =>
    if 0xDC00 ≤ unit ∧ unit ≤ 0xDFFF then .string spelled none false
    else if 0xD800 ≤ unit ∧ unit ≤ 0xDBFF then .string spelled (some unit) ok
    else .string (spellBackwards unit ++ spelled) none ok

def step : Reading → UInt8 → List Token × Reading
  | .between, b => beginToken b
  | .word [] token, b => (token :: (beginToken b).1, (beginToken b).2)
  | .word (c :: rest) token, b =>
    if b = c then
      match rest with
      | [] => ([token], .between)
      | rest => ([], .word rest token)
    else ([.broken], .dead)
  | .string spelled high ok, b =>
    if b = 0x22 then
      ([.string (if ok ∧ high.isNone then Bytes.text? spelled.reverse else none)], .between)
    else if b = 0x5C then ([], .escape spelled high ok)
    else if b < 0x20 then ([.broken], .dead)
    else ([], .string (b :: spelled) none (ok && high.isNone))
  | .escape spelled high ok, b =>
    if b = 0x75 then ([], .unicode spelled high ok 0 0)
    else
      match plainEscape? b with
      | some c => ([], .string (c :: spelled) none (ok && high.isNone))
      | none => ([.broken], .dead)
  | .unicode spelled high ok digits value, b =>
    match hexDigit? b with
    | none => ([.broken], .dead)
    | some d =>
      if digits = 3 then ([], takeUnit spelled high ok (value * 16 + d))
      else ([], .unicode spelled high ok (digits + 1) (value * 16 + d))
  | .number part x, b =>
    match continueNumber part x b with
    | some (some (part, x)) => ([], .number part x)
    | some none => ([.broken], .dead)
    | none => (.number x.number :: (beginToken b).1, (beginToken b).2)
  | .dead, _ => ([], .dead)

/-- The tokens still due where the text ends. -/
def finish : Reading → List Token
  | .between => []
  | .number part x => if part.mayEnd then [.number x.number] else [.broken]
  | .dead => []
  | _ => [.broken]

def tokensFrom (reading : Reading) : Bytes → List Token
  | [] => finish reading
  | b :: rest => (step reading b).1 ++ tokensFrom (step reading b).2 rest

def tokens (text : Bytes) : List Token := tokensFrom .between text

end LiveMigration.Json
