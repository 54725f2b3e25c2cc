/-
# Configurations in JSON and YAML

A configuration is a record of two sections with one number each. Both forms leave anything out that
is to keep its default, and skip what they do not know.
-/
import MuxBridge.Config.Basic
import MuxBridge.Json.Reading
import MuxBridge.Yaml.Reading

namespace MuxBridge

/-- The key of the settings of round trips. -/
def rpcKey : String := "rpc"

/-- The key of the settings of delegates. -/
def delegateKey : String := "delegate"

/-- The key of the deadline of a round trip. -/
def requestKey : String := "request_timeout_ms"

/-- The key of the deadline of a resolution. -/
def resolveKey : String := "resolve_timeout_ms"

/-! ## Writing -/

/-- Settings of round trips in JSON. -/
def RpcSettings.toJson (s : RpcSettings) : Json := .object [(requestKey, .nat s.requestMillis)]

/-- Settings of delegates in JSON. -/
def DelegateSettings.toJson (s : DelegateSettings) : Json :=
  .object [(resolveKey, .nat s.resolveMillis)]

/-- A configuration in JSON. -/
def Config.toJson (c : Config) : Json :=
  .object [(rpcKey, c.rpc.toJson), (delegateKey, c.delegate.toJson)]

/-- A section with one number in YAML. -/
def yamlSection (key field : String) (n : Nat) : String :=
  key ++ ":\n  " ++ field ++ ": " ++ decimalDigits n ++ "\n"

/-- A configuration in YAML. -/
def Config.toYaml (c : Config) : String :=
  yamlSection rpcKey requestKey c.rpc.requestMillis ++
    yamlSection delegateKey resolveKey c.delegate.resolveMillis

/-! ## Reading JSON -/

/-- Settings of round trips as a record. -/
def RpcSettings.record : Record (Option Nat) RpcSettings where
  label := "struct RpcSettings"
  fields := [requestKey]
  start := none
  put _ _ d s := setOnce requestKey s d.readWord64
  finish s := .ok ((s.map RpcSettings.mk).getD .default)

/-- Reads settings of round trips. -/
def RpcSettings.read (src : Source) (d : Draft) : Read RpcSettings := RpcSettings.record.read src d

/-- Settings of delegates as a record. -/
def DelegateSettings.record : Record (Option Nat) DelegateSettings where
  label := "struct DelegateSettings"
  fields := [resolveKey]
  start := none
  put _ _ d s := setOnce resolveKey s d.readWord64
  finish s := .ok ((s.map DelegateSettings.mk).getD .default)

/-- Reads settings of delegates. -/
def DelegateSettings.read (src : Source) (d : Draft) : Read DelegateSettings :=
  DelegateSettings.record.read src d

/-- A configuration as a record. -/
def Config.record : Record (Option RpcSettings × Option DelegateSettings) Config where
  label := "struct GatewayConfig"
  fields := [rpcKey, delegateKey]
  start := (none, none)
  put src name d s :=
    if name = rpcKey then do return (← setOnce name s.1 (RpcSettings.read src d), s.2)
    else do return (s.1, ← setOnce name s.2 (DelegateSettings.read src d))
  finish s := .ok ⟨s.1.getD .default, s.2.getD .default⟩

/-- Reads a configuration without judging it. -/
def Config.read (src : Source) (d : Draft) : Read Config := Config.record.read src d

/-! ## Reading YAML -/

/-- Settings of round trips as a section. -/
def RpcSettings.yamlSection : Yaml.Section (Option Nat) where
  label := RpcSettings.record.label
  fields := [{ name := requestKey
               isSet := Option.isSome
               read := fun d path ns _ => do
                 let (n, ns) ← Yaml.readWord64 d path ns
                 return (some n, ns) }]
  start := none

/-- Settings of delegates as a section. -/
def DelegateSettings.yamlSection : Yaml.Section (Option Nat) where
  label := DelegateSettings.record.label
  fields := [{ name := resolveKey
               isSet := Option.isSome
               read := fun d path ns _ => do
                 let (n, ns) ← Yaml.readWord64 d path ns
                 return (some n, ns) }]
  start := none

/-- A configuration as a section of two sections. -/
def Config.yamlSection : Yaml.Section (Option RpcSettings × Option DelegateSettings) where
  label := Config.record.label
  fields :=
    [{ name := rpcKey
       isSet := fun s => s.1.isSome
       read := fun d path ns s => do
         let (n, ns) ← RpcSettings.yamlSection.read d path ns
         return ((some ((n.map RpcSettings.mk).getD .default), s.2), ns) },
     { name := delegateKey
       isSet := fun s => s.2.isSome
       read := fun d path ns s => do
         let (n, ns) ← DelegateSettings.yamlSection.read d path ns
         return ((s.1, some ((n.map DelegateSettings.mk).getD .default)), ns) }]
  start := (none, none)

/-- Reads a configuration from YAML without judging it. -/
def Config.readYaml (text : String) : Yaml.Reading Config := do
  let s ← Config.yamlSection.readText text
  return ⟨s.1.getD .default, s.2.getD .default⟩

end MuxBridge
