/-
# Written doubles

How a double is spelled in a message: the digits are the shortest decimal, and a `NumberStyle` says
which magnitudes are written out in full and how an exponent looks.
-/
import MuxBridge.Decimal.Shortest

namespace MuxBridge

/-- The decisions a written double leaves open. -/
structure NumberStyle where
  /-- Whether a number whose decimal point stands after `p` of its digits is written in full. -/
  inFull : Int → Bool
  /-- The sign of an exponent that is not negative. -/
  exponentPlus : String

/-- The digits of a natural number in base ten. -/
def decimalDigits (n : Nat) : String := String.ofList (Nat.toDigits 10 n)

/-- A row of zeros. -/
def zeros (n : Nat) : String := String.ofList (List.replicate n '0')

/-- Digits with the decimal point after the first `p` of them, always with a digit on both sides. -/
def writeInFull (digits : String) (p : Int) : String :=
  let n := digits.length
  if p ≤ 0 then "0." ++ zeros (-p).toNat ++ digits
  else if p < n then
    String.ofList (digits.toList.take p.toNat) ++ "." ++ String.ofList (digits.toList.drop p.toNat)
  else digits ++ zeros (p - n).toNat ++ ".0"

/-- Digits with the point after the first one, then the exponent. -/
def writeScientific (style : NumberStyle) (digits : String) (p : Int) : String :=
  let mantissa :=
    match digits.toList with
    | [] | [_] => digits
    | d :: ds => String.ofList (d :: '.' :: ds)
  let e := p - 1
  mantissa ++ "e" ++ (if e < 0 then "-" else style.exponentPlus) ++ decimalDigits e.natAbs

/-- The text of a double. -/
def Binary64.write (style : NumberStyle) : Binary64 → String
  | .nan => "NaN"
  | .infinite s => if s then "-inf" else "inf"
  | .finite s m e =>
    let d := shortestDecimal m e
    let digits := decimalDigits d.digits
    let p := digits.length + d.exponent
    (if s then "-" else "") ++
      if d.digits = 0 then "0.0"
      else if style.inFull p then writeInFull digits p
      else writeScientific style digits p

end MuxBridge
