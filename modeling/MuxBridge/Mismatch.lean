/-
# Mismatches

What can be wrong with a well-formed document that does not fit the type it is read as. A
`Mismatch` is the cause; its wording depends on the document's `Dialect` only where two kinds of
documents name the same finding differently.
-/
import MuxBridge.Decimal.Written
import MuxBridge.Text.Quoted

namespace MuxBridge

/-- What a reader met where it expected something else. -/
inductive Found where
  | absent
  | boolean (b : Bool)
  | integer (n : Int)
  /-- An integer of more than 64 bits, with the name of the type that holds it. -/
  | wideInteger (n : Int) (type : String)
  | float (x : Binary64)
  | string (s : String)
  | sequence
  | map
  deriving DecidableEq, Repr

/-- Why a document does not fit a type. -/
inductive Mismatch where
  | invalidType (found : Found) (expected : String)
  | invalidValue (found : Found) (expected : String)
  | invalidLength (length : Nat) (expected : String)
  | unknownVariant (name : String) (known : List String)
  | missingField (name : String)
  | duplicateField (name : String)
  deriving DecidableEq, Repr

/-- How one kind of document words what it found. -/
structure Dialect where
  /-- The name of the empty value. -/
  absent : String
  floats : NumberStyle

/-- The text of a finding. -/
def Found.describe (d : Dialect) : Found → String
  | .absent => d.absent
  | .boolean b => "boolean `" ++ (if b then "true" else "false") ++ "`"
  | .integer n => "integer `" ++ toString n ++ "`"
  | .wideInteger n type => "integer `" ++ toString n ++ "` as " ++ type
  | .float x => "floating point `" ++ x.write d.floats ++ "`"
  | .string s => "string " ++ Quoted.write s
  | .sequence => "sequence"
  | .map => "map"

/-- The names a variant could have had. -/
def describeChoices : List String → String
  | [] => "there are no variants"
  | [a] => "expected `" ++ a ++ "`"
  | [a, b] => "expected `" ++ a ++ "` or `" ++ b ++ "`"
  | names => "expected one of " ++ ", ".intercalate (names.map fun n => "`" ++ n ++ "`")

/-- The text of a mismatch. -/
def Mismatch.message (d : Dialect) : Mismatch → String
  | .invalidType f e => "invalid type: " ++ f.describe d ++ ", expected " ++ e
  | .invalidValue f e => "invalid value: " ++ f.describe d ++ ", expected " ++ e
  | .invalidLength n e => "invalid length " ++ toString n ++ ", expected " ++ e
  | .unknownVariant n known => "unknown variant `" ++ n ++ "`, " ++ describeChoices known
  | .missingField n => "missing field `" ++ n ++ "`"
  | .duplicateField n => "duplicate field `" ++ n ++ "`"

end MuxBridge
