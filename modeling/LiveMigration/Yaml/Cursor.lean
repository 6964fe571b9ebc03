/-!
A place in a YAML text: the characters still to be read, how many were read before them, and
the line and column. Five characters or pairs of them end a line; all but two of them count
as a newline in what is read.
-/

namespace LiveMigration.Yaml

def isBreak (c : Char) : Bool :=
  c == '\n' || c == '\r' || c == '\u0085' || c == '\u2028' || c == '\u2029'

def isBlank (c : Char) : Bool := c == ' ' || c == '\t'

/-- Characters of anchors, tag handles and directive names. -/
def isWordChar (c : Char) : Bool := c.isAlphanum || c == '_' || c == '-'

structure Cursor where
  rest : List Char
  index : Nat
  line : Nat
  column : Nat
  deriving Repr

namespace Cursor

def start (text : List Char) : Cursor := ⟨text, 0, 0, 0⟩

def char? (c : Cursor) : Option Char := c.rest.head?

def isAt (c : Cursor) (k : Nat) (ch : Char) : Bool := c.rest[k]? == some ch

def sees (c : Cursor) (p : Char → Bool) : Bool := c.char?.any p

/-- Whether a blank, the end of a line or the end of the text is so many characters ahead. -/
def endsWord (c : Cursor) (k : Nat) : Bool :=
  match c.rest[k]? with
  | some ch => isBlank ch || isBreak ch
  | none => true

def endsLine (c : Cursor) : Bool :=
  match c.char? with
  | some ch => isBreak ch
  | none => true

def advance (c : Cursor) (n : Nat) : Cursor :=
  { c with rest := c.rest.drop n, index := c.index + n, column := c.column + n }

def skip (c : Cursor) : Cursor := c.advance 1

def skipLine (c : Cursor) : Cursor :=
  match c.rest with
  | '\r' :: '\n' :: rest => ⟨rest, c.index + 2, c.line + 1, 0⟩
  | _ :: rest => ⟨rest, c.index + 1, c.line + 1, 0⟩
  | [] => c

/-- What the end of a line at this place is read as. -/
def lineBreak? (c : Cursor) : Option Char :=
  match c.char? with
  | some ch =>
    if ch = '\u2028' ∨ ch = '\u2029' then some ch
    else if isBreak ch then some '\n'
    else none
  | none => none

def takeWhile (c : Cursor) (p : Char → Bool) : List Char × Cursor :=
  let taken := c.rest.takeWhile p
  (taken, c.advance taken.length)

def skipWhile (c : Cursor) (p : Char → Bool) : Cursor := (c.takeWhile p).2

def threeOf (c : Cursor) (ch : Char) : Bool := c.isAt 0 ch && c.isAt 1 ch && c.isAt 2 ch

/-- Whether a line begins here with a mark that starts or ends a document. -/
def atDocumentMark (c : Cursor) : Bool :=
  c.column == 0 && (c.threeOf '-' || c.threeOf '.') && c.endsWord 3

end Cursor

end LiveMigration.Yaml
