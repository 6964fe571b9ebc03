import LiveMigration.Json.Token

/-!
JSON values as far as the text goes. A container whose text breaks off is kept with the
items read until then and marked as not whole, so that whoever decodes it meets the faults
of a text in the order in which they stand there. Members keep their order and may repeat.
-/

namespace LiveMigration.Json

inductive Tree
  | null
  | bool (b : Bool)
  | number (n : Number)
  | string (s : Option String)
  | array (items : List Tree) (whole : Bool)
  | object (members : List (Option String × Tree)) (whole : Bool)
  | broken
  deriving Repr

/-- A container that is still open: its items backwards. An object also holds the key whose
value is awaited. -/
inductive Frame
  | array (done : List Tree)
  | object (done : List (Option String × Tree)) (key : Option (Option String))

inductive Expecting
  | value
  | valueOrEnd
  | keyOrEnd
  | key
  | colon
  | commaOrEnd
  deriving DecidableEq, Repr

/-- Ends all open containers where the text breaks off. -/
def abandon : List Frame → Option Tree → Tree
  | [], found => found.getD .broken
  | .array done :: outer, found =>
    abandon outer (some (.array (done.reverse ++ found.toList) false))
  | .object done none :: outer, _ => abandon outer (some (.object done.reverse false))
  | .object done (some key) :: outer, found =>
    abandon outer (some (.object (done.reverse ++ [(key, found.getD .broken)]) false))

/-- Puts a complete value into the innermost container; `.inr` if there is none. -/
def place (v : Tree) : List Frame → List Frame ⊕ Tree
  | [] => .inr v
  | .array done :: outer => .inl (.array (v :: done) :: outer)
  | .object done (some key) :: outer => .inl (.object ((key, v) :: done) none :: outer)
  | .object done none :: outer => .inl (.object done none :: outer)

def Token.leaf? : Token → Option Tree
  | .null => some .null
  | .bool b => some (.bool b)
  | .number n => some (.number n)
  | .string s => some (.string s)
  | _ => none

inductive Move
  | go (expecting : Expecting) (frames : List Frame)
  | done (v : Tree)
  | stuck

def Move.ofPlaced : List Frame ⊕ Tree → Move
  | .inl frames => .go .commaOrEnd frames
  | .inr v => .done v

def closeInner : List Frame → Move
  | .array done :: outer => .ofPlaced (place (.array done.reverse true) outer)
  | .object done none :: outer => .ofPlaced (place (.object done.reverse true) outer)
  | _ => .stuck

def beginValue (t : Token) (frames : List Frame) : Move :=
  match t with
  | .openBracket => .go .valueOrEnd (.array [] :: frames)
  | .openBrace => .go .keyOrEnd (.object [] none :: frames)
  | t =>
    match t.leaf? with
    | some v => .ofPlaced (place v frames)
    | none => .stuck

def beginKey (t : Token) (frames : List Frame) : Move :=
  match t, frames with
  | .string s, .object done none :: outer => .go .colon (.object done (some s) :: outer)
  | _, _ => .stuck

def move : Expecting → Token → List Frame → Move
  | .value, t, frames => beginValue t frames
  | .valueOrEnd, .closeBracket, frames => closeInner frames
  | .valueOrEnd, t, frames => beginValue t frames
  | .keyOrEnd, .closeBrace, frames => closeInner frames
  | .keyOrEnd, t, frames => beginKey t frames
  | .key, t, frames => beginKey t frames
  | .colon, .colon, frames => .go .value frames
  | .colon, _, _ => .stuck
  | .commaOrEnd, .comma, frames@(.array _ :: _) => .go .value frames
  | .commaOrEnd, .comma, frames => .go .key frames
  | .commaOrEnd, .closeBracket, frames@(.array _ :: _) => closeInner frames
  | .commaOrEnd, .closeBrace, frames@(.object _ _ :: _) => closeInner frames
  | .commaOrEnd, _, _ => .stuck

/-- The first value of a token list, and the tokens behind it. -/
def build (expecting : Expecting) (frames : List Frame) : List Token → Tree × List Token
  | [] => (abandon frames none, [])
  | t :: rest =>
    match move expecting t frames with
    | .go expecting frames => build expecting frames rest
    | .done v => (v, rest)
    | .stuck => (abandon frames none, [])

/-- A text as one value; `ends` says whether nothing but blanks follows it. -/
structure Document where
  tree : Tree
  ends : Bool
  deriving Repr

def Document.ofBytes (text : Bytes) : Document :=
  let (tree, rest) := build .value [] (tokens text)
  ⟨tree, rest.isEmpty⟩

end LiveMigration.Json
