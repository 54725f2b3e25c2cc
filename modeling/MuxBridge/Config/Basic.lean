/-
# Configuration

The two deadlines of the gateway: how long a round trip may take, and how long the first resolution
of a delegate may take. Zero stands for no deadline. Since a resolution makes at least one round
trip, its deadline must not be the shorter one; `Config.validate` says so.
-/
import MuxBridge.Duration
import MuxBridge.Failure

namespace MuxBridge

/-- Settings of round trips. -/
structure RpcSettings where
  /-- The deadline of a round trip in milliseconds, or zero for none. -/
  requestMillis : Nat
  deriving DecidableEq, Repr

/-- Settings of delegates. -/
structure DelegateSettings where
  /-- The deadline of the first resolution in milliseconds, or zero for none. -/
  resolveMillis : Nat
  deriving DecidableEq, Repr

/-- The configuration of a gateway. -/
structure Config where
  rpc : RpcSettings
  delegate : DelegateSettings
  deriving DecidableEq, Repr

/-- A deadline of so many milliseconds, where zero means none. -/
def deadlineOfMillis (n : Nat) : Option Duration := if n = 0 then none else some (.ofMillis n)

/-- A deadline of so many milliseconds counts as many. -/
theorem millis_of_deadlineOfMillis {n : Nat} {d : Duration} (h : deadlineOfMillis n = some d)
    (hn : n < Duration.words) : d.millis = n := by
  unfold deadlineOfMillis at h
  split at h
  · cases h
  · rw [← Option.some.inj h, Duration.millis_ofMillis hn]

/-- A round trip takes at most ten seconds by default. -/
def RpcSettings.default : RpcSettings := ⟨10000⟩

/-- The deadline of a round trip. -/
def RpcSettings.requestTimeout (s : RpcSettings) : Option Duration :=
  deadlineOfMillis s.requestMillis

/-- A resolution may take any time by default. -/
def DelegateSettings.default : DelegateSettings := ⟨0⟩

/-- The deadline of the first resolution. -/
def DelegateSettings.resolveTimeout (s : DelegateSettings) : Option Duration :=
  deadlineOfMillis s.resolveMillis

namespace Config

/-- The configuration that an empty document stands for. -/
def default : Config := ⟨.default, .default⟩

/-- Whether a resolution has time for a round trip. -/
def Fits (c : Config) : Prop :=
  c.delegate.resolveMillis = 0 ∨ c.rpc.requestMillis = 0 ∨
    c.rpc.requestMillis ≤ c.delegate.resolveMillis

instance (c : Config) : Decidable c.Fits := by unfold Fits; infer_instance

/-- What is wrong with a configuration in which a resolution has no time for a round trip. -/
def unfitText (c : Config) : String :=
  "delegate.resolve_timeout_ms (" ++ toString c.delegate.resolveMillis ++
    ") must be 0 or >= rpc.request_timeout_ms (" ++ toString c.rpc.requestMillis ++ ")"

/-- Accepts a configuration in which a resolution has time for a round trip. -/
def validate (c : Config) : Outcome Unit :=
  if c.Fits then .ok () else .error (.configuration c.unfitText)

end Config

end MuxBridge
