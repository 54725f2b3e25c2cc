/-
# Resolved scalars

What a scalar means. A plain scalar may be the empty value, a flag, an integer in one of four bases,
or a float; all else is a string. A tag of the core schema decides which of them the text has to be.
-/
import MuxBridge.Mismatch
import MuxBridge.Yaml.Scalar
import MuxBridge.Yaml.Token

namespace MuxBridge.Yaml

/-! ## Integers -/

/-- The number that digits of a base spell. -/
def digitsIn? (base : Nat) (cs : List Char) : Option Nat :=
  if cs.isEmpty then none
  else cs.foldl (fun n c => do
    let d ← hexValue? c
    if d < base then return (← n) * base + d else none) (some 0)

/-- Whether digits start with a zero that has no place there. -/
def hasLeadingZero (cs : List Char) : Bool :=
  match cs with
  | '0' :: _ :: _ => cs.all Char.isDigit
  | _ => false

/-- The magnitude that a text without a sign spells: decimal, or in the base that its start
names. -/
def magnitude? : List Char → Option Nat
  | '0' :: 'x' :: ds => digitsIn? 16 ds
  | '0' :: 'o' :: ds => digitsIn? 8 ds
  | '0' :: 'b' :: ds => digitsIn? 2 ds
  | cs => if hasLeadingZero cs then none else digitsIn? 10 cs

/-- A text without its plus sign. -/
def withoutPlus : List Char → List Char
  | '+' :: cs => cs
  | cs => cs

/-- The integer of a text without a minus sign, if it has at most `bits` bits. -/
def unsigned? (bits : Nat) (cs : List Char) : Option Nat :=
  (magnitude? (withoutPlus cs)).filter (· < Nat.pow 2 bits)

/-- The integer of a text with a minus sign, if it has at most `bits` bits in two's complement. -/
def negative? (bits : Nat) : List Char → Option Int
  | '-' :: cs => ((magnitude? cs).filter (· ≤ Nat.pow 2 (bits - 1))).map fun n => -(n : Int)
  | _ => none

/-- The integer a text spells. -/
def integer? (cs : List Char) : Option Found :=
  match unsigned? 64 cs, negative? 64 cs with
  | some n, _ => some (.integer n)
  | none, some n => some (.integer n)
  | none, none =>
    match unsigned? 128 cs, negative? 128 cs with
    | some n, _ => some (.wideInteger n "u128")
    | none, some n => some (.wideInteger n "i128")
    | none, none => none

/-! ## Floats -/

/-- The exponent at the end of a decimal, zero if there is none. -/
def exponent? : List Char → Option Int
  | [] => some 0
  | c :: r =>
    if c = 'e' ∨ c = 'E' then
      match r with
      | '-' :: ds => (digitsIn? 10 ds).map fun n => -(n : Int)
      | '+' :: ds => (digitsIn? 10 ds).map fun n => (n : Int)
      | ds => (digitsIn? 10 ds).map fun n => (n : Int)
    else none

/-- The finite double that a decimal without a sign spells: digits before or after a point, and
perhaps an exponent. -/
def decimal? (negative : Bool) (cs : List Char) : Option Binary64 :=
  let whole := cs.takeWhile Char.isDigit
  let r := cs.dropWhile Char.isDigit
  let (fraction, r) := match r with
    | '.' :: r => (r.takeWhile Char.isDigit, r.dropWhile Char.isDigit)
    | r => ([], r)
  match digitsIn? 10 (whole ++ fraction), exponent? r with
  | some n, some e =>
    let x := Binary64.ofDecimal negative n (e - fraction.length)
    if x.isFinite then some x else none
  | _, _ => none

/-- The double a text spells: a decimal, an infinity or the undefined number. -/
def float? (cs : List Char) : Option Binary64 :=
  if String.ofList (withoutPlus cs) ∈ [".inf", ".Inf", ".INF"] then some (.infinite false)
  else if String.ofList cs ∈ ["-.inf", "-.Inf", "-.INF"] then some (.infinite true)
  else if String.ofList cs ∈ [".nan", ".NaN", ".NAN"] then some .nan
  else
    match cs with
    | '+' :: r => decimal? false r
    | '-' :: r => decimal? true r
    | r => decimal? false r

/-! ## Scalars -/

/-- Whether a text spells the empty value. -/
def isNull (s : String) : Bool := s ∈ ["null", "Null", "NULL", "~"]

/-- The flag a text spells. -/
def flag? (s : String) : Option Bool :=
  if s ∈ ["true", "True", "TRUE"] then some true
  else if s ∈ ["false", "False", "FALSE"] then some false
  else none

/-- Whether a text is a row of digits that starts with a needless zero, with or without a sign. -/
def isPaddedNumber : List Char → Bool
  | '+' :: cs => hasLeadingZero cs
  | '-' :: cs => hasLeadingZero cs
  | cs => hasLeadingZero cs

/-- What a plain scalar without a tag means. -/
def resolvePlain (s : String) : Found :=
  if s = "" || isNull s then .absent
  else
    match flag? s, integer? s.toList with
    | some b, _ => .boolean b
    | none, some i => i
    | none, none =>
      if isPaddedNumber s.toList then .string s
      else
        match float? s.toList with
        | some x => .float x
        | none => .string s

/-- The tag of integers. -/
def integerTag : String := "tag:yaml.org,2002:int"

/-- What the text of a scalar has to be under a tag of the core schema, and what it is if it is
that. -/
def underTag? (tag text : String) : Option (String × Option Found) :=
  if tag = "tag:yaml.org,2002:bool" then some ("a boolean", (flag? text).map .boolean)
  else if tag = integerTag then some ("an integer", integer? text.toList)
  else if tag = "tag:yaml.org,2002:float" then some ("a float", (float? text.toList).map .float)
  else if tag = "tag:yaml.org,2002:null" then
    some ("null", if isNull text then some .absent else none)
  else none

/-- What a scalar means, or what its tag would have it be. A tag of the document's own leaves a
plain scalar as it is; every other tag makes it a string. -/
def resolve (tag : Option String) (text : String) (style : Style) : Except String Found :=
  match tag with
  | none => .ok (if style = .plain then resolvePlain text else .string text)
  | some tag =>
    match underTag? tag text with
    | some (_, some f) => .ok f
    | some (wanted, none) => .error wanted
    | none =>
      .ok (if tag.toList.head? = some '!' && style = .plain then resolvePlain text
        else .string text)

/-- Why a scalar is not what was expected. -/
def scalarMismatch (tag : Option String) (text : String) (style : Style) (expected : String) :
    Mismatch :=
  match resolve tag text style with
  | .ok f => .invalidType f expected
  | .error wanted => .invalidValue (.string text) wanted

end MuxBridge.Yaml
