import LiveMigration.Text.Bytes

/-!
Tokens of YAML. Indentation shows as tokens of its own, which begin and end block
collections.
-/

namespace LiveMigration.Yaml

inductive Style
  | plain
  | singleQuoted
  | doubleQuoted
  | literal
  | folded
  deriving DecidableEq, Repr

inductive Token
  | streamStart
  | streamEnd
  | version (major minor : Nat)
  | tagShorthand (handle : String) (expansion : Bytes)
  | documentStart
  | documentEnd
  | blockSequenceStart
  | blockMappingStart
  | blockEnd
  | flowSequenceStart
  | flowSequenceEnd
  | flowMappingStart
  | flowMappingEnd
  | blockEntry
  | flowEntry
  | key
  | value
  | alias (name : String)
  | anchor (name : String)
  /-- A tag by its handle, empty for a tag that is given in full. -/
  | tag (handle : String) (suffix : Bytes)
  | scalar (text : String) (style : Style)
  deriving DecidableEq, Repr

end LiveMigration.Yaml
