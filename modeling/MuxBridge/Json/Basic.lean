/-
# JSON values

The values a JSON text denotes. Members of an object keep the order and the repetitions they are
written with; a number is an integer when it is written as one and fits 64 bits, and a double
otherwise.
-/
import MuxBridge.Decimal.Binary64

namespace MuxBridge

/-- A number of a JSON text. -/
inductive Number where
  | int (n : Int)
  | float (x : Binary64)
  deriving DecidableEq, Repr, Inhabited

/-- A JSON value. -/
inductive Json where
  | null
  | bool (b : Bool)
  | number (n : Number)
  | string (s : String)
  | array (items : List Json)
  | object (members : List (String × Json))
  deriving BEq, Repr, Inhabited

namespace Json

/-- The number of a natural. -/
def nat (n : Nat) : Json := .number (.int n)

/-- The first member of an object under a name. -/
def member? (name : String) : Json → Option Json
  | .object ms => ms.lookup name
  | _ => none

end Json

end MuxBridge
