import LiveMigration.Validation

/-!
Why a text does not decode into a typed value, and the two checks that every record makes:
no field comes twice, and a field without a default comes at all.
-/

namespace LiveMigration

inductive DecodeError
  /-- The text breaks the rules of its format, is nested too deeply, or goes on behind the
  value. -/
  | broken
  | missingField (name : String)
  | unknownField (name : String)
  | duplicateField (name : String)
  | unknownVariant (name : String)
  | invalidType
  | invalidValue
  | invalidLength
  /-- The value is of the right form but not acceptable. -/
  | rejected (why : ValidationError)
  deriving DecidableEq, Repr

/-- Decoding faults are put in angle brackets, apart from the words of other errors. -/
def DecodeError.message : DecodeError → String
  | broken => "<syntax>"
  | missingField name => s!"<missing field `{name}`>"
  | unknownField name => s!"<unknown field `{name}`>"
  | duplicateField name => s!"<duplicate field `{name}`>"
  | unknownVariant name => s!"<unknown variant `{name}`>"
  | invalidType => "<invalid type>"
  | invalidValue => "<invalid value>"
  | invalidLength => "<invalid length>"
  | rejected why => "<" ++ why.message ++ ">"

abbrev Decoded (α : Type) := Except DecodeError α

/-- Fills a field that must not be there yet. -/
def fill (name : String) (slot : Option α) (v : Decoded α) : Decoded (Option α) :=
  if slot.isSome then .error (.duplicateField name) else v.map some

def required (name : String) : Option α → Decoded α
  | some v => .ok v
  | none => .error (.missingField name)

end LiveMigration
