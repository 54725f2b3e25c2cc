/-
# Tokens of a YAML text

The marks, names and scalars that a YAML text consists of. Indentation has become tokens of its own:
a block opens with a start token and closes with `blockEnd`, and every key of a mapping follows a
`key` token, whether the text writes one or not.
-/

namespace MuxBridge.Yaml

/-- How a scalar is written. -/
inductive Style where
  | plain
  | singleQuoted
  | doubleQuoted
  /-- A block that keeps its line breaks. -/
  | literal
  /-- A block whose lines are joined. -/
  | folded
  deriving DecidableEq, Repr

/-- A token. -/
inductive Token where
  /-- The directive that names the version of YAML. -/
  | version (major minor : Nat)
  /-- The directive that makes a handle an abbreviation. -/
  | abbreviation (handle expansion : String)
  | documentStart
  | documentEnd
  | blockSequenceStart
  | blockMappingStart
  | blockEnd
  | flowSequenceStart
  | flowSequenceEnd
  | flowMappingStart
  | flowMappingEnd
  | blockEntry
  | flowEntry
  | key
  | value
  | alias (name : String)
  | anchor (name : String)
  | tag (handle suffix : String)
  | scalar (text : String) (style : Style)
  | streamEnd
  deriving DecidableEq, Repr

end MuxBridge.Yaml
