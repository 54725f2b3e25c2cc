/-
# Loading configurations

A configuration is loaded from a YAML text or from a file that holds one, and is valid once loaded.
-/
import MuxBridge.Config.Coding

namespace MuxBridge

/-- What is found under the path of a file. -/
inductive FileContent where
  | missing
  | directory
  | bytes (content : ByteArray)

/-- The text of a file. -/
def FileContent.text : FileContent → Outcome String
  | .missing => .error (.file "No such file or directory (os error 2)")
  | .directory => .error (.file "Is a directory (os error 21)")
  | .bytes content =>
    match String.fromUTF8? content with
    | some s => .ok s
    | none => .error (.file "stream did not contain valid UTF-8")

namespace Config

/-- Loads a configuration from a YAML text. -/
def ofYaml (text : String) : Outcome Config :=
  match Config.readYaml text with
  | .error e => .error (.yaml e)
  | .ok c => do
    c.validate
    return c

/-- Loads a configuration from a file. -/
def ofFile (content : FileContent) : Outcome Config := do ofYaml (← content.text)

end Config

end MuxBridge
