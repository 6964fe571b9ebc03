import LiveMigration.DecodeError
import LiveMigration.Yaml.Event

/-!
Decoding YAML documents into typed values. Values are read event by event, so a value of the
wrong type is reported before a fault further down in the text. Any scalar is a text; a
number, a truth value or nothing must be a plain scalar that spells one.
-/

namespace LiveMigration.Yaml

abbrev Reader (α : Type) := Document → List Event → Decoded (α × List Event)

/-- The node to be read: its events, and those behind it if it stands elsewhere. -/
def locate (d : Document) : List Event → Decoded (List Event × Option (List Event))
  | [] => .error .broken
  | .alias anchor :: rest =>
    match d.places.lookup anchor with
    | some place => .ok (d.events.drop place, some rest)
    | none => .error .broken
  | events => .ok (events, none)

def readScalar (decode : String → Style → Option Bytes → Decoded α) : Reader α := fun d events => do
  let (node, back) ← locate d events
  match node with
  | .scalar text style tag :: rest => return (← decode text style tag, back.getD rest)
  | [] => .error .broken
  | _ => .error .invalidType

def readText : Reader String := readScalar fun text _ _ => .ok text

def standardTag (name : String) : Bytes := Bytes.ofText ("tag:yaml.org,2002:" ++ name)

/-- Whether a scalar may spell a value of the type with that tag. -/
def maySpell (tagName : String) (style : Style) (tag : Option Bytes) : Bool :=
  style = .plain || (style = .literal && tag = some (standardTag tagName))

def digitsIn (base : Nat) (digits : List Char) : Option Nat :=
  if digits.isEmpty then none
  else
    digits.foldlM (fun n ch =>
      ((Hex.value? ch).filter (· < base)).map (n * base + ·)) 0

/-- A natural number: decimal without leading zeros, or with the mark of another base. -/
def natural? (text : String) : Option Nat :=
  let unsigned := match text.toList with
    | '+' :: rest => rest
    | cs => cs
  let marked := match unsigned with
    | '0' :: 'x' :: rest => digitsIn 16 rest
    | '0' :: 'o' :: rest => digitsIn 8 rest
    | '0' :: 'b' :: rest => digitsIn 2 rest
    | _ => none
  let n := match marked with
    | some n => some n
    | none =>
      match unsigned with
      | '0' :: _ :: _ => none
      | cs => digitsIn 10 cs
  n.filter (· < UInt64.size)

def readNatural (bound : Nat) : Reader Nat := readScalar fun text style tag =>
  if maySpell "int" style tag then
    match natural? text with
    | some n => if n < bound then .ok n else .error .invalidValue
    | none => .error .invalidType
  else .error .invalidType

def bool? (text : String) : Option Bool :=
  if ["true", "True", "TRUE"].contains text then some true
  else if ["false", "False", "FALSE"].contains text then some false
  else none

def readBool : Reader Bool := readScalar fun text style tag =>
  match bool? text with
  | some b => if maySpell "bool" style tag then .ok b else .error .invalidType
  | none => .error .invalidType

def isNullText (text : String) : Bool := ["null", "Null", "NULL", "~"].contains text

def readOptionalText : Reader (Option String) := readScalar fun text style tag =>
  if maySpell "null" style tag then
    match tag with
    | none => .ok (if text.isEmpty ∨ isNullText text then none else some text)
    | some t =>
      if t ≠ standardTag "null" then .ok (some text)
      else if isNullText text then .ok none
      else .error .invalidValue
  else .ok (some text)

def readMembers (take : α → String → Reader α) : Nat → α → Reader α
  | 0, _ => fun _ _ => .error .broken
  | fuel + 1, acc => fun d events =>
    match events with
    | [] => .error .broken
    | .mappingEnd :: rest => .ok (acc, rest)
    | events => do
      let (key, events) ← readText d events
      let (acc, events) ← take acc key d events
      readMembers take fuel acc d events

/-- A record; one that is left out has no members. -/
def readRecord (take : α → String → Reader α) (start : α) : Reader α := fun d events => do
  let (node, back) ← locate d events
  match node with
  | .mappingStart :: inside =>
    let (v, rest) ← readMembers take (inside.length + 1) start d inside
    return (v, back.getD rest)
  | .scalar text style _ :: rest =>
    if text.isEmpty ∧ style = .plain then return (start, back.getD rest)
    else .error .invalidType
  | [] => .error .broken
  | _ => .error .invalidType

def fillFrom (name : String) (slot : Option α) (read : Reader α) : Reader (Option α) :=
  fun d events =>
    if slot.isSome then .error (.duplicateField name)
    else do
      let (v, rest) ← read d events
      return (some v, rest)

/-- Decodes a whole text, which must hold one document. -/
def decodeText (read : Reader α) (text : String) : Decoded α := do
  let d := Document.ofText text
  let (v, _) ← read d d.events
  if d.sound then .ok v else .error .broken

end LiveMigration.Yaml
