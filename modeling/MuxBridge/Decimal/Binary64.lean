/-
# Doubles as exact ratios

The 64-bit binary format, kept as the numbers it stands for, so that every operation is arithmetic
on naturals. The key construction is `Binary64.ofRatio`, which rounds a ratio of naturals to the
nearest double, a tie going to the even mantissa; products, quotients and the reading of decimals
are that rounding applied to an exact ratio.
-/

namespace MuxBridge

/-- A number of the 64-bit binary format. A finite one is `mantissa * 2 ^ exponent` under its sign,
with the mantissa below `2 ^ 53`. -/
inductive Binary64 where
  | finite (negative : Bool) (mantissa : Nat) (exponent : Int)
  | infinite (negative : Bool)
  | nan
  deriving DecidableEq, Repr, Inhabited

/-! ## Rounding a ratio -/

/-- The ratio `num / den` in units of `2 ^ e`, again as a ratio. -/
def inUnits (num den : Nat) (e : Int) : Nat × Nat :=
  if 0 ≤ e then (num, den * Nat.pow 2 e.toNat) else (num * Nat.pow 2 (-e).toNat, den)

/-- The natural number nearest to `num / den`, the even one of two that are equally near. -/
def roundHalfEven (num den : Nat) : Nat :=
  let q := num / den
  let r := num % den
  if 2 * r < den then q
  else if den < 2 * r then q + 1
  else if q % 2 = 0 then q else q + 1

namespace Binary64

/-- The exponent of the smallest positive double. -/
def minExponent : Int := -1074

/-- The exponent of the largest finite double. -/
def maxExponent : Int := 971

/-- Zero under a sign. -/
def zero (negative : Bool) : Binary64 := .finite negative 0 minExponent

/-- A rounded mantissa as a double: a carry into the next power of two moves to the exponent, and
what lies above the largest exponent is infinite. -/
def ofParts (negative : Bool) (mantissa : Nat) (exponent : Int) : Binary64 :=
  let (m, e) :=
    if mantissa = Nat.pow 2 53 then (Nat.pow 2 52, exponent + 1) else (mantissa, exponent)
  if maxExponent < e then .infinite negative else .finite negative m e

/-- The double nearest to `num / den` under a sign. -/
def ofRatio (negative : Bool) (num den : Nat) : Binary64 :=
  if num = 0 then zero negative
  else
    let low := max minExponent ((num.log2 : Int) - den.log2 - 53)
    let (n, d) := inUnits num den low
    let e := if Nat.pow 2 53 ≤ n / d then low + 1 else low
    let (n, d) := inUnits num den e
    ofParts negative (roundHalfEven n d) e

/-- The double nearest to a natural number. -/
def ofNat (n : Nat) : Binary64 := ofRatio false n 1

/-! ## Arithmetic -/

/-- Numerator and denominator of the magnitude `mantissa * 2 ^ exponent`. -/
def ratio (mantissa : Nat) (exponent : Int) : Nat × Nat :=
  if 0 ≤ exponent then (mantissa * Nat.pow 2 exponent.toNat, 1)
  else (mantissa, Nat.pow 2 (-exponent).toNat)

/-- Whether the number is zero, under either sign. -/
def isZero : Binary64 → Bool
  | .finite _ m _ => m == 0
  | _ => false

/-- Whether the number is neither infinite nor undefined. -/
def isFinite : Binary64 → Bool
  | .finite .. => true
  | _ => false

/-- The same number under the other sign. -/
def neg : Binary64 → Binary64
  | .finite s m e => .finite (!s) m e
  | .infinite s => .infinite (!s)
  | .nan => .nan

/-- The rounded product of finite numbers; undefined when a factor is not finite. -/
def mul : Binary64 → Binary64 → Binary64
  | .finite s m e, .finite t n f =>
    let (a, b) := ratio m e
    let (c, d) := ratio n f
    ofRatio (s != t) (a * c) (b * d)
  | _, _ => .nan

/-- The rounded quotient of finite numbers; undefined when a part is not finite or the divisor is
zero. -/
def div : Binary64 → Binary64 → Binary64
  | .finite s m e, .finite t n f =>
    if n = 0 then .nan
    else
      let (a, b) := ratio m e
      let (c, d) := ratio n f
      ofRatio (s != t) (a * d) (b * c)
  | _, _ => .nan

/-! ## Reading decimals -/

/-- The double nearest to `digits * 10 ^ exponent` under a sign. Magnitudes far outside the range of
the format are settled by their number of digits alone. -/
def ofDecimal (negative : Bool) (digits : Nat) (exponent : Int) : Binary64 :=
  let top := (digits.log2 : Int) * 30103 / 100000 + exponent
  if digits = 0 ∨ top < -400 then zero negative
  else if 400 < top then .infinite negative
  else if 0 ≤ exponent then ofRatio negative (digits * Nat.pow 10 exponent.toNat) 1
  else ofRatio negative digits (Nat.pow 10 (-exponent).toNat)

end Binary64

end MuxBridge
