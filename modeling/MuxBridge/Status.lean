/-
# Response statuses

Every response of the host carries a status. A status has a name, which the messages spell out, and
a numeric code; `Status.ofName?` and `Status.ofCode?` lead back.
-/
import MuxBridge.Json.Reading

namespace MuxBridge

/-- How the host judged a request. -/
inductive Status where
  | ok
  /-- The request was not understood. -/
  | invalidRequest
  /-- No connection has the identifier. -/
  | invalidConnection
  /-- No window has the identifier. -/
  | invalidWindow
  deriving DecidableEq, Repr, Inhabited

namespace Status

/-- All statuses in the order of their codes. -/
def all : List Status := [.ok, .invalidRequest, .invalidConnection, .invalidWindow]

/-- The statuses other than success, in the order of their codes. -/
def failures : List Status := [.invalidRequest, .invalidConnection, .invalidWindow]

/-- The name as the host spells it. -/
def name : Status → String
  | .ok => "OK"
  | .invalidRequest => "INVALID_REQUEST"
  | .invalidConnection => "INVALID_CONNECTION_ID"
  | .invalidWindow => "INVALID_WINDOW_ID"

/-- The numeric code. -/
def code : Status → Int
  | .ok => 0
  | .invalidRequest => 1
  | .invalidConnection => 2
  | .invalidWindow => 3

/-- Whether the status is success. -/
def isOk : Status → Bool
  | .ok => true
  | _ => false

/-- The status with a code. -/
def ofCode? (c : Int) : Option Status := all.find? (·.code == c)

/-- The status with a name. -/
def ofName? (n : String) : Option Status := all.find? (·.name == n)

/-- All names in the order of their codes. -/
def names : List String := all.map name

/-- Naming a status and looking the name up leads back to it. -/
@[simp] theorem ofName?_name (s : Status) : ofName? s.name = some s := by
  cases s <;> decide

/-- Taking the code of a status and looking it up leads back to it. -/
@[simp] theorem ofCode?_code (s : Status) : ofCode? s.code = some s := by
  cases s <;> decide

/-- A status is written as its name. -/
def toJson (s : Status) : Json := .string s.name

/-- Reads a status. -/
def read (src : Source) (d : Draft) : Read Status := do
  let n ← d.readEnumerated names src
  match ofName? n with
  | some s => .ok s
  | none => .error (.mismatch (.unknownVariant n names))

end Status

end MuxBridge
