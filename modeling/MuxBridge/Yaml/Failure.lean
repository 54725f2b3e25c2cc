/-
# Failures of reading YAML

A YAML document fails either as a text, which has no further cause here, or because a value does not
fit, at a path of keys from the root of the document.
-/
import MuxBridge.Mismatch

namespace MuxBridge

/-- The path from the root of a document to one of its values. -/
inductive YamlPath where
  | root
  | key (parent : YamlPath) (name : String)
  /-- The value of a key that is not a plain name. -/
  | unnamed (parent : YamlPath)
  deriving DecidableEq, Repr

/-- The text of a path: names with points between them, and nothing for the root. -/
def YamlPath.text : YamlPath → String
  | .root => ""
  | .key .root n => n
  | .key p n => p.text ++ "." ++ n
  | .unnamed .root => "?"
  | .unnamed p => p.text ++ ".?"

/-- Why a YAML document cannot be read as a type. -/
inductive YamlFailure where
  /-- The text is not one well-formed document. -/
  | unreadable
  | mismatch (path : YamlPath) (m : Mismatch)
  deriving DecidableEq, Repr

/-- YAML writes doubles in full and calls the empty value a unit. -/
def yamlDialect : Dialect := ⟨"unit value", ⟨fun _ => true, ""⟩⟩

/-- The text of a failure, where it has a cause. -/
def YamlFailure.message? : YamlFailure → Option String
  | .unreadable => none
  | .mismatch .root m => some (m.message yamlDialect)
  | .mismatch p m => some (p.text ++ ": " ++ m.message yamlDialect)

end MuxBridge
