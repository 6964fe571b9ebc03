import LiveMigration.Yaml.Scalar
import LiveMigration.Yaml.Token

/-!
Cutting a YAML text into tokens. Whether a node is a key shows only at the colon behind it;
then the tokens `key` and, in block context, `blockMappingStart` are put in front of it. A
text may go wrong while such a node waits for its colon, and then this node and all behind
it are not there for a reader.
-/

namespace LiveMigration.Yaml

/-- A node that may turn out to be a key: the number of its first token and its place. -/
structure Candidate where
  token : Nat
  index : Nat
  line : Nat
  column : Nat
  /-- It stands where nothing but a key can stand. -/
  required : Bool
  deriving Repr

structure Lexer where
  place : Cursor
  flow : Nat
  /-- The columns of the open block collections, innermost first. -/
  indents : List Nat
  keyAllowed : Bool
  /-- The candidate of the block context and of each open flow collection, innermost first. -/
  candidates : List (Option Candidate)
  done : List Token
  count : Nat
  deriving Repr

namespace Lexer

def start (text : List Char) : Lexer :=
  ⟨.start text, 0, [], true, [none], [.streamStart], 1⟩

def inFlow (s : Lexer) : Bool := 0 < s.flow

def emit (s : Lexer) (t : Token) : Lexer := { s with done := t :: s.done, count := s.count + 1 }

def insert (s : Lexer) (n : Nat) (t : Token) : Lexer :=
  let after := s.count - n
  { s with done := s.done.take after ++ t :: s.done.drop after, count := s.count + 1 }

/-- Ends the block collections that stand to the right of a column. -/
def closeTo (column : Nat) : List Nat → Lexer → Lexer
  | [], s => { s with indents := [] }
  | i :: rest, s =>
    if column < i then closeTo column rest (s.emit .blockEnd) else { s with indents := i :: rest }

def unroll (s : Lexer) (column : Nat) : Lexer :=
  if s.inFlow then s else closeTo column s.indents s

def unrollAll (s : Lexer) : Lexer :=
  if s.inFlow then s
  else { s with
    done := s.indents.map (fun _ => Token.blockEnd) ++ s.done
    count := s.count + s.indents.length
    indents := [] }

/-- Begins a block collection if the column is to the right of the open ones. -/
def roll (s : Lexer) (column : Nat) (before : Option Nat) (t : Token) : Lexer :=
  let deeper := s.indents.head?.all (· < column)
  if s.inFlow || !deeper then s
  else
    let s := { s with indents := column :: s.indents }
    match before with
    | some n => s.insert n t
    | none => s.emit t

def candidate? (s : Lexer) : Option Candidate := s.candidates.head?.join

def setCandidate (s : Lexer) (k : Option Candidate) : Lexer :=
  { s with candidates := k :: s.candidates.drop 1 }

/-- The candidate of this level is no key; it may not have been required. -/
def dropCandidate (s : Lexer) : Option Lexer :=
  if (s.candidate?.map Candidate.required).getD false then none else some (s.setCandidate none)

def saveCandidate (s : Lexer) : Option Lexer :=
  if s.keyAllowed then do
    let required := !s.inFlow && s.indents.head? == some s.place.column
    let s ← s.dropCandidate
    return s.setCandidate
      (some ⟨s.count, s.place.index, s.place.line, s.place.column, required⟩)
  else some s

/-- A key stands on one line and has at most 1024 characters. -/
def isStale (s : Lexer) (k : Candidate) : Bool :=
  k.line < s.place.line || k.index + 1024 < s.place.index

def dropStale (s : Lexer) : Option Lexer :=
  if s.candidates.any fun k => k.any fun k => k.required && s.isStale k then none
  else some { s with candidates := s.candidates.map fun k => k.filter fun k => !s.isStale k }

/-- How many tokens are settled: those in front of the first candidate. -/
def settled (s : Lexer) : Nat :=
  (s.candidates.filterMap fun k => k.map Candidate.token).foldl min s.count

def toToken : Nat → Lexer → Lexer
  | 0, s => s
  | fuel + 1, s =>
    let c := s.place
    let c := if c.column = 0 ∧ c.isAt 0 '\ufeff' then c.skip else c
    let c := c.skipWhile fun ch => ch == ' ' || (ch == '\t' && (s.inFlow || !s.keyAllowed))
    let c := if c.isAt 0 '#' then c.skipWhile (!isBreak ·) else c
    if c.sees isBreak then
      toToken fuel { s with place := c.skipLine, keyAllowed := s.keyAllowed || !s.inFlow }
    else { s with place := c }

def moveTo (s : Lexer) (c : Cursor) : Lexer := { s with place := c }

def skip (s : Lexer) (n : Nat) : Lexer := s.moveTo (s.place.advance n)

def allowKey (s : Lexer) (allowed : Bool) : Lexer := { s with keyAllowed := allowed }

/-- At a mark or directive that stands outside all collections. -/
def leaveBlocks (s : Lexer) : Option Lexer :=
  return (← s.unrollAll.dropCandidate).allowKey false

def documentMark (s : Lexer) (t : Token) : Option Lexer :=
  return ((← s.leaveBlocks).skip 3).emit t

def decimal? (digits : List Char) : Option Nat :=
  if digits.isEmpty ∨ 9 < digits.length then none else some (Nat.ofDigitChars 10 digits 0)

def isUriChar (full : Bool) (ch : Char) : Bool :=
  isWordChar ch || ";/?:@&=+$.!~*'()".toList.contains ch ||
    (full && [',', '[', ']'].contains ch)

def escapedWidth? (first : Nat) : Option Nat :=
  if first < 0x80 then some 1
  else if 0xC0 ≤ first ∧ first < 0xE0 then some 2
  else if 0xE0 ≤ first ∧ first < 0xF0 then some 3
  else if 0xF0 ≤ first ∧ first < 0xF8 then some 4
  else none

/-- Reads so many escaped bytes; `follow` says that they are not the first of a character. -/
def uriEscapes (follow : Bool) : Nat → Cursor → Bytes → Option (Cursor × Bytes)
  | 0, c, bytes => some (c, bytes)
  | n + 1, c, bytes =>
    if c.isAt 0 '%' then do
      let value ← hexNumber? ((c.rest.drop 1).take 2)
      if c.rest.length < 3 ∨ (follow ∧ value / 64 ≠ 2) then none
      uriEscapes follow n (c.advance 3) (bytes ++ [UInt8.ofNat value])
    else none

def readUri (full : Bool) : Nat → Cursor → Bytes → Option (Cursor × Bytes)
  | 0, c, bytes => some (c, bytes)
  | fuel + 1, c, bytes =>
    match c.char? with
    | some '%' => do
      let value ← hexNumber? ((c.rest.drop 1).take 2)
      let width ← escapedWidth? value
      let (c, bytes) ← uriEscapes false 1 c bytes
      let (c, bytes) ← uriEscapes true (width - 1) c bytes
      readUri full fuel c bytes
    | some ch =>
      if isUriChar full ch then
        readUri full fuel c.skip (bytes ++ Bytes.ofText ch.toString)
      else some (c, bytes)
    | none => some (c, bytes)

def uri (full : Bool) (c : Cursor) : Option (Cursor × Bytes) :=
  readUri full (c.rest.length + 1) c []

/-- A handle: an exclamation mark, word characters, and perhaps another mark. -/
def tagHandle (c : Cursor) : Option (String × Cursor) :=
  if c.isAt 0 '!' then
    let (word, c) := c.skip.takeWhile isWordChar
    if c.isAt 0 '!' then some (String.ofList ('!' :: word ++ ['!']), c.skip)
    else some (String.ofList ('!' :: word), c)
  else none

def isWholeHandle (handle : String) : Bool :=
  1 < handle.length && handle.toList.getLast? == some '!'

def readTag (c : Cursor) : Option (Cursor × Token) :=
  if c.isAt 1 '<' then do
    let (c, bytes) ← uri true (c.advance 2)
    if bytes.isEmpty ∨ ¬ c.isAt 0 '>' then none
    return (c.skip, .tag "" bytes)
  else do
    let (handle, c) ← tagHandle c
    if isWholeHandle handle then
      let (c, bytes) ← uri false c
      if bytes.isEmpty then none
      return (c, .tag handle bytes)
    else
      let begun := Bytes.ofText (String.ofList (handle.toList.drop 1))
      let (c, bytes) ← uri false c
      if (begun ++ bytes).isEmpty then return (c, .tag "" (Bytes.ofText "!"))
      return (c, .tag "!" (begun ++ bytes))

def endDirective (c : Cursor) : Option Cursor :=
  let c := c.skipWhile isBlank
  let c := if c.isAt 0 '#' then c.skipWhile (!isBreak ·) else c
  if c.rest.isEmpty then some c
  else if c.endsLine then some c.skipLine
  else none

def readDirective (c : Cursor) : Option (Cursor × Token) := do
  let (name, c) := c.skip.takeWhile isWordChar
  if name.isEmpty ∨ ¬ c.endsWord 0 then none
  let c := c.skipWhile isBlank
  if String.ofList name = "YAML" then
    let (major, c) := c.takeWhile Char.isDigit
    let major ← decimal? major
    if ¬ c.isAt 0 '.' then none
    let (minor, c) := c.skip.takeWhile Char.isDigit
    let minor ← decimal? minor
    return (← endDirective c, .version major minor)
  else if String.ofList name = "TAG" then
    let (handle, c) ← tagHandle c
    if handle ≠ "!" ∧ ¬ isWholeHandle handle then none
    if ¬ c.sees isBlank then none
    let (c, expansion) ← uri true (c.skipWhile isBlank)
    if expansion.isEmpty ∨ ¬ c.endsWord 0 then none
    return (← endDirective c, .tagShorthand handle expansion)
  else none

def directive (s : Lexer) : Option Lexer := do
  let s ← s.leaveBlocks
  let (c, t) ← readDirective s.place
  return (s.moveTo c).emit t

def openFlow (s : Lexer) (t : Token) : Option Lexer := do
  let s ← s.saveCandidate
  let s := { s with candidates := none :: s.candidates, flow := s.flow + 1, keyAllowed := true }
  return (s.skip 1).emit t

def closeFlow (s : Lexer) (t : Token) : Option Lexer := do
  let s ← s.dropCandidate
  let s := if s.inFlow then { s with candidates := s.candidates.drop 1, flow := s.flow - 1 } else s
  return ((s.allowKey false).skip 1).emit t

def flowEntry (s : Lexer) : Option Lexer := do
  return (((← s.dropCandidate).allowKey true).skip 1).emit .flowEntry

def beginBlock (s : Lexer) (t : Token) : Option Lexer :=
  if s.inFlow then some s
  else if s.keyAllowed then some (s.roll s.place.column none t)
  else none

def blockEntry (s : Lexer) : Option Lexer := do
  let s ← s.beginBlock .blockSequenceStart
  return (((← s.dropCandidate).allowKey true).skip 1).emit .blockEntry

def key (s : Lexer) : Option Lexer := do
  let s ← s.beginBlock .blockMappingStart
  return (((← s.dropCandidate).allowKey (!s.inFlow)).skip 1).emit .key

def value (s : Lexer) : Option Lexer := do
  let s ← match s.candidate? with
    | some k =>
      let s := s.insert k.token .key
      let s := s.roll k.column (some k.token) .blockMappingStart
      some ((s.setCandidate none).allowKey false)
    | none =>
      let s ← s.beginBlock .blockMappingStart
      some (s.allowKey (!s.inFlow))
  return (s.skip 1).emit .value

def anchorName (c : Cursor) : Option (String × Cursor) :=
  let (name, c) := c.skip.takeWhile isWordChar
  if name.isEmpty ∨ ¬ (c.endsWord 0 || c.sees ("?:,]\x7d%@\x60".toList.contains ·)) then none
  else some (String.ofList name, c)

def node (s : Lexer) (read : Cursor → Option (Cursor × Token)) : Option Lexer := do
  let s := (← s.saveCandidate).allowKey false
  let (c, t) ← read s.place
  return (s.moveTo c).emit t

def tag (s : Lexer) : Option Lexer := do
  let s ← s.node readTag
  if s.place.endsWord 0 ∨ (s.inFlow ∧ s.place.isAt 0 ',') then return s else none

def blockScalar (s : Lexer) (folded : Bool) : Option Lexer := do
  let s := (← s.dropCandidate).allowKey true
  let (c, text) ← readBlock folded s.indents.head? s.place.skip
  return (s.moveTo c).emit (.scalar (String.ofList text) (if folded then .folded else .literal))

def quotedScalar (s : Lexer) (quote : Char) (style : Style) : Option Lexer :=
  s.node fun c => do
    let (c, text) ← readQuoted quote (c.rest.length + 1) c.skip []
    return (c, .scalar (String.ofList text.reverse) style)

/-- After a plain scalar that runs up to a new line a key may begin. -/
def plainScalar (s : Lexer) : Option Lexer := do
  let s := (← s.saveCandidate).allowKey false
  let indent := match s.indents with
    | i :: _ => i + 1
    | [] => 0
  let (c, p) ← readPlain s.inFlow indent (s.place.rest.length + 1) s.place ⟨[], .none⟩
  let s := (s.moveTo c).emit (.scalar (String.ofList p.text.reverse) .plain)
  return if p.gap.broken then s.allowKey true else s

/-- Characters that no plain scalar begins with, unless what follows allows it. -/
def isIndicator (ch : Char) : Bool := "-?:,[]\x7b\x7d#&*!|>'\"%@\x60".toList.contains ch

def takeToken (s : Lexer) : Option Lexer :=
  let c := s.place
  match c.char? with
  | none =>
    return ((← s.leaveBlocks).emit .streamEnd)
  | some ch =>
    if c.column = 0 ∧ ch = '%' then s.directive
    else if c.atDocumentMark then
      s.documentMark (if ch = '-' then .documentStart else .documentEnd)
    else if ch = '[' then s.openFlow .flowSequenceStart
    else if ch = '\x7b' then s.openFlow .flowMappingStart
    else if ch = ']' then s.closeFlow .flowSequenceEnd
    else if ch = '\x7d' then s.closeFlow .flowMappingEnd
    else if ch = ',' then s.flowEntry
    else if ch = '-' ∧ c.endsWord 1 then s.blockEntry
    else if ch = '?' ∧ (s.inFlow ∨ c.endsWord 1) then s.key
    else if ch = ':' ∧ (s.inFlow ∨ c.endsWord 1) then s.value
    else if ch = '*' then s.node fun c => (anchorName c).map fun (n, c) => (c, .alias n)
    else if ch = '&' then s.node fun c => (anchorName c).map fun (n, c) => (c, .anchor n)
    else if ch = '!' then s.tag
    else if ch = '|' ∧ ¬ s.inFlow then s.blockScalar false
    else if ch = '>' ∧ ¬ s.inFlow then s.blockScalar true
    else if ch = '\x27' then s.quotedScalar ch .singleQuoted
    else if ch = '"' then s.quotedScalar ch .doubleQuoted
    else if (¬ isBlank ch ∧ ¬ isIndicator ch) ∨ (ch = '-' ∧ ¬ c.skip.sees isBlank) ∨
        (¬ s.inFlow ∧ (ch = '?' ∨ ch = ':') ∧ ¬ c.endsWord 1) then s.plainScalar
    else none

def next (s : Lexer) : Option Lexer := do
  let s ← (s.toToken (s.place.rest.length + 1)).dropStale
  (← takeToken (s.unroll s.place.column)).dropStale

/-- All tokens that a reader gets to see; the last one is `streamEnd` if the text is well
formed. -/
def run : Nat → Lexer → List Token
  | 0, s => s.done.reverse
  | fuel + 1, s =>
    match s.dropStale with
    | none => s.done.reverse.take s.settled
    | some s =>
      match s.next with
      | none => s.done.reverse.take s.settled
      | some s' => if s'.done.head? = some .streamEnd then s'.done.reverse else run fuel s'

end Lexer

def isPrintable (ch : Char) : Bool :=
  let n := ch.toNat
  n == 0x09 || n == 0x0A || n == 0x0D || (0x20 ≤ n && n ≤ 0x7E) || n == 0x85 ||
    (0xA0 ≤ n && n ≤ 0xFFFD) || 0x10000 ≤ n

/-- The tokens of a text; none at all if it holds a control character. -/
def tokens (text : List Char) : List Token :=
  if text.all isPrintable then Lexer.run (text.length + 2) (Lexer.start text) else []

end LiveMigration.Yaml
