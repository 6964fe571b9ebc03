import LiveMigration.Digest.Hex
import LiveMigration.Yaml.Cursor

/-!
Scalars of YAML: how the text of plain, quoted and block scalars is put together from its
lines. A single line end between words becomes a space; of several, all but the first stay.
Each reader gives the text and the place behind it, or nothing if the text is ill formed.
-/

namespace LiveMigration.Yaml

/-- The blanks and line ends between two words, each list backwards. -/
structure Gap where
  broken : Bool
  spaces : List Char
  first : Option Char
  others : List Char
  deriving Repr

namespace Gap

def none : Gap := ⟨false, [], .none, []⟩

/-- A gap that begins with a line end that is to leave no trace. -/
def escaped : Gap := ⟨true, [], .none, []⟩

/-- A first line end that is a newline becomes a space, or gives way to the others. -/
def fold (first : Option Char) (others : List Char) : List Char :=
  match first with
  | some '\n' => if others.isEmpty then [' '] else others
  | some c => c :: others
  | .none => others

def text (g : Gap) : List Char :=
  if g.broken then fold g.first g.others.reverse else g.spaces.reverse

end Gap

/-- Reads blanks and line ends. A tab may not stand left of `indent` on a new line. -/
def readGap (indent : Nat) : Nat → Cursor → Gap → Option (Cursor × Gap)
  | 0, c, g => some (c, g)
  | fuel + 1, c, g =>
    match c.char? with
    | some ch =>
      if isBlank ch then
        if g.broken ∧ c.column < indent ∧ ch = '\t' then none
        else readGap indent fuel c.skip (if g.broken then g else { g with spaces := ch :: g.spaces })
      else
        match c.lineBreak? with
        | some b =>
          readGap indent fuel c.skipLine
            (if g.broken then { g with others := b :: g.others } else ⟨true, [], some b, []⟩)
        | none => some (c, g)
    | none => some (c, g)

/-- What has been read of a scalar: its text backwards, and the gap behind it. -/
structure Partial where
  text : List Char
  gap : Gap
  deriving Repr

def Partial.push (p : Partial) (ch : Char) : Partial :=
  ⟨ch :: (p.gap.text.reverse ++ p.text), .none⟩

def isFlowIndicator (ch : Char) : Bool :=
  ch == ',' || ch == '[' || ch == ']' || ch == '\x7b' || ch == '\x7d'

def plainWord (flow : Bool) : Nat → Cursor → Partial → Option (Cursor × Partial)
  | 0, c, p => some (c, p)
  | fuel + 1, c, p =>
    match c.char? with
    | none => some (c, p)
    | some ch =>
      if c.endsWord 0 then some (c, p)
      else if flow ∧ ch = ':' ∧ (c.skip.sees fun d => isFlowIndicator d || d == '?') then none
      else if (ch = ':' ∧ c.endsWord 1) ∨ (flow ∧ isFlowIndicator ch) then some (c, p)
      else plainWord flow fuel c.skip (p.push ch)

/-- Reads a plain scalar; in block context its lines must be indented. -/
def readPlain (flow : Bool) (indent : Nat) : Nat → Cursor → Partial → Option (Cursor × Partial)
  | 0, c, p => some (c, p)
  | fuel + 1, c, p =>
    if c.atDocumentMark ∨ c.isAt 0 '#' then some (c, p)
    else do
      let (c, p) ← plainWord flow (c.rest.length + 1) c p
      if ¬ c.sees fun ch => isBlank ch || isBreak ch then return (c, p)
      let (c, gap) ← readGap indent (c.rest.length + 1) c p.gap
      if ¬ flow ∧ c.column < indent then return (c, { p with gap })
      readPlain flow indent fuel c { p with gap }

def escape? (ch : Char) : Option Char :=
  [('0', '\x00'), ('a', '\x07'), ('b', '\x08'), ('t', '\t'), ('\t', '\t'), ('n', '\n'),
    ('v', '\x0b'), ('f', '\x0c'), ('r', '\r'), ('e', '\x1b'), (' ', ' '), ('"', '"'),
    ('/', '/'), ('\\', '\\'), ('N', '\u0085'), ('_', '\u00a0'), ('L', '\u2028'),
    ('P', '\u2029')].lookup ch

def escapeLength? (ch : Char) : Option Nat := [('x', 2), ('u', 4), ('U', 8)].lookup ch

def hexNumber? (digits : List Char) : Option Nat :=
  digits.foldlM (fun n ch => (Hex.value? ch).map (n * 16 + ·)) 0

def readEscape (c : Cursor) : Option (Char × Cursor) := do
  let letter ← c.rest[1]?
  let c := c.advance 2
  match escape? letter with
  | some ch => return (ch, c)
  | none =>
    let n ← escapeLength? letter
    let digits := c.rest.take n
    if digits.length < n then none
    else
      let value ← hexNumber? digits
      if (0xD800 ≤ value ∧ value ≤ 0xDFFF) ∨ 0x10FFFF < value then none
      else return (Char.ofNat value, c.advance n)

/-- Reads up to a blank, the end of a line or the closing quote. The answer says whether an
escaped line end was passed. -/
def quotedWord (quote : Char) : Nat → Cursor → List Char → Option (Cursor × List Char × Bool)
  | 0, c, text => some (c, text, false)
  | fuel + 1, c, text =>
    match c.char? with
    | none => some (c, text, false)
    | some ch =>
      if c.endsWord 0 then some (c, text, false)
      else if ch = quote then
        if quote = '\x27' ∧ c.isAt 1 quote then quotedWord quote fuel (c.advance 2) (ch :: text)
        else some (c, text, false)
      else if ch = '\\' ∧ quote = '"' then
        if c.skip.sees isBreak then some (c.skip.skipLine, text, true)
        else
          match readEscape c with
          | some (e, c) => quotedWord quote fuel c (e :: text)
          | none => none
      else quotedWord quote fuel c.skip (ch :: text)

def readQuoted (quote : Char) : Nat → Cursor → List Char → Option (Cursor × List Char)
  | 0, _, _ => none
  | fuel + 1, c, text =>
    if c.atDocumentMark ∨ c.rest.isEmpty then none
    else do
      let (c, text, escaped) ← quotedWord quote (c.rest.length + 1) c text
      if c.isAt 0 quote then return (c.skip, text)
      let (c, gap) ← readGap 0 (c.rest.length + 1) c (if escaped then .escaped else .none)
      readQuoted quote fuel c (gap.text.reverse ++ text)

inductive Chomping
  | strip
  | clip
  | keep
  deriving DecidableEq, Repr

/-- The line ends in front of the next line of a block scalar. Without a given indentation,
the deepest column that is reached counts. -/
def blockBreaks (indent : Nat) :
    Nat → Cursor → Nat → List Char → Option (Cursor × Nat × List Char)
  | 0, c, deepest, breaks => some (c, deepest, breaks)
  | fuel + 1, c, deepest, breaks =>
    let room := if indent = 0 then c.rest.length else indent - c.column
    let spaces := (c.rest.take room).takeWhile (· == ' ')
    let c := c.advance spaces.length
    let deepest := max deepest c.column
    if (indent = 0 ∨ c.column < indent) ∧ c.isAt 0 '\t' then none
    else
      match c.lineBreak? with
      | some b => blockBreaks indent fuel c.skipLine deepest (b :: breaks)
      | none => some (c, deepest, breaks)

/-- What has been read of a block scalar, each list backwards: its text, the end of its last
line, the empty lines behind it, and whether the last line began with a blank. -/
structure Block where
  text : List Char
  ending : List Char
  empties : List Char
  blankLed : Bool
  deriving Repr

def blockLines (folded : Bool) (indent : Nat) : Nat → Cursor → Block → Option (Cursor × Block)
  | 0, c, b => some (c, b)
  | fuel + 1, c, b =>
    if c.column ≠ indent ∨ c.rest.isEmpty then some (c, b)
    else do
      let blankLed := c.sees isBlank
      let ending :=
        if folded ∧ b.ending = ['\n'] ∧ ¬ b.blankLed ∧ ¬ blankLed then
          if b.empties.isEmpty then [' '] else []
        else b.ending
      let (line, c) := c.takeWhile (!isBreak ·)
      let text := line.reverse ++ b.empties ++ ending ++ b.text
      let newEnding := c.lineBreak?.toList
      let c := if c.rest.isEmpty then c else c.skipLine
      let (c, _, empties) ← blockBreaks indent (c.rest.length + 1) c 0 []
      blockLines folded indent fuel c ⟨text, newEnding, empties, blankLed⟩

/-- The indicators of a block scalar: chomping and indentation in either order. -/
def blockHeader (c : Cursor) : Option (Chomping × Nat × Cursor) :=
  let chomping (c : Cursor) : Option (Chomping × Cursor) :=
    match c.char? with
    | some '+' => some (.keep, c.skip)
    | some '-' => some (.strip, c.skip)
    | _ => none
  let digit (c : Cursor) : Option (Nat × Cursor) :=
    match c.char? with
    | some ch => if ch.isDigit then some (ch.toNat - '0'.toNat, c.skip) else none
    | none => none
  match chomping c with
  | some (kind, c) =>
    match digit c with
    | some (0, _) => none
    | some (n, c) => some (kind, n, c)
    | none => some (kind, 0, c)
  | none =>
    match digit c with
    | some (0, _) => none
    | some (n, c) =>
      match chomping c with
      | some (kind, c) => some (kind, n, c)
      | none => some (.clip, n, c)
    | none => some (.clip, 0, c)

/-- Reads a block scalar from behind its indicator; `outer` is the column it is nested in. -/
def readBlock (folded : Bool) (outer : Option Nat) (c : Cursor) : Option (Cursor × List Char) := do
  let (kind, increment, c) ← blockHeader c
  let c := c.skipWhile isBlank
  let c := if c.isAt 0 '#' then c.skipWhile (!isBreak ·) else c
  if ¬ c.endsLine then none
  let c := if c.rest.isEmpty then c else c.skipLine
  let given := if increment = 0 then 0 else outer.getD 0 + increment
  let (c, deepest, empties) ← blockBreaks given (c.rest.length + 1) c 0 []
  let least := match outer with
    | some n => n + 1
    | none => 1
  let indent := if given = 0 then max deepest least else given
  let (c, b) ← blockLines folded indent (c.rest.length + 1) c ⟨[], [], empties, false⟩
  let text := if kind = .strip then b.text else b.ending ++ b.text
  let text := if kind = .keep then b.empties ++ text else text
  return (c, text.reverse)

end LiveMigration.Yaml
