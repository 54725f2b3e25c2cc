/-
# Failures

Everything that can go wrong between the gateway and the host, as causes. `Failure.message` words
them, and three questions sort them: which status the host returned, whether the embedder made a
mistake, and whether the round trip itself failed.
-/
import MuxBridge.Status
import MuxBridge.Yaml.Failure

namespace MuxBridge

/-- Why an operation failed. -/
inductive Failure where
  /-- The host answered with this status. -/
  | refused (status : Status)
  /-- The host reported success without the payload that the request asks for. -/
  | incomplete (expected : String)
  /-- A delegate is needed and no factory is registered. -/
  | noFactory
  /-- A factory is registered already. -/
  | factoryTaken
  /-- The factory could not build a delegate. -/
  | factory (text : String)
  /-- The round trip could not be completed. -/
  | transport (text : String)
  /-- The round trip took longer than its deadline of whole milliseconds. -/
  | timeout (millis : Nat)
  /-- The resolution of the delegate took longer than its deadline of whole milliseconds. -/
  | resolutionTimeout (millis : Nat)
  /-- The configuration contradicts itself. -/
  | configuration (text : String)
  /-- A file could not be read. -/
  | file (text : String)
  | yaml (cause : YamlFailure)
  | json (cause : JsonFailure)
  deriving DecidableEq, Repr

namespace JsonFailure

/-- The text of a failure, where the value is to blame and not the text. -/
def message? : JsonFailure → Option String
  | .fault _ => none
  | .mismatch m => some (m.message jsonDialect)

end JsonFailure

namespace Failure

/-- The words of a failure. A document that is not well formed has none of its own. -/
def message : Failure → String
  | .refused s => "tmux request failed: " ++ s.name
  | .incomplete e => "tmux reported success without " ++ e
  | .noFactory => "no tmux delegate factory registered"
  | .factoryTaken => "a tmux delegate factory is already registered"
  | .factory t => "delegate factory failed: " ++ t
  | .transport t => "Transport error: " ++ t
  | .timeout n => "Timeout waiting for response after " ++ toString n ++ "ms"
  | .resolutionTimeout n => "Timeout resolving tmux delegate after " ++ toString n ++ "ms"
  | .configuration t => "Configuration error: " ++ t
  | .file t => "IO error: " ++ t
  | .yaml c => "YAML error: " ++ c.message?.getD ""
  | .json c => "Serialization error: " ++ c.message?.getD ""

/-- The name of the status that the host returned, if that is the failure. -/
def statusName? : Failure → Option String
  | .refused s => some s.name
  | _ => none

/-- Whether the embedder made a mistake that no retry will mend. -/
def isConfiguration : Failure → Bool
  | .noFactory | .factoryTaken | .configuration _ => true
  | _ => false

/-- Whether the round trip failed below the level of statuses. -/
def isTransport : Failure → Bool
  | .transport _ | .timeout _ | .file _ => true
  | _ => false

end Failure

/-- The outcome of an operation. -/
abbrev Outcome (α : Type) := Except Failure α

end MuxBridge
