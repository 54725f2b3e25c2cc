/-
# The shortest decimal of a double

The reals that round to a double form an interval. `shortestDecimal` looks for a decimal in that
interval on ever finer decimal grids, one digit more each time, and takes the first it meets, the
nearer one where a grid offers two. All comparisons are exact, on naturals.
-/
import MuxBridge.Decimal.Binary64

namespace MuxBridge

/-- The decimal number `digits * 10 ^ exponent`. -/
structure Decimal where
  digits : Nat
  exponent : Int
  deriving DecidableEq, Repr

/-- The reals that round to one double: the double itself is `value / unit`, and the interval runs
from `low / unit` to `high / unit`, the ends included exactly if `closed`. -/
structure RoundingInterval where
  low : Nat
  value : Nat
  high : Nat
  unit : Nat
  closed : Bool

/-- The rounding interval of `mantissa * 2 ^ exponent`, counted in quarters of a unit in the last
place. Below a power of two the next double is only half as far away. -/
def RoundingInterval.of (mantissa : Nat) (exponent : Int) : RoundingInterval :=
  let below := if mantissa = Nat.pow 2 52 ∧ Binary64.minExponent < exponent then 1 else 2
  let (scale, unit) := Binary64.ratio 1 (exponent - 2)
  { low := (4 * mantissa - below) * scale
    value := 4 * mantissa * scale
    high := (4 * mantissa + 2) * scale
    unit := unit
    closed := mantissa % 2 == 0 }

namespace RoundingInterval

/-- The interval with its unit and its ends brought to the grid of multiples of `10 ^ k`. -/
def onGrid (r : RoundingInterval) (k : Int) : RoundingInterval :=
  if 0 ≤ k then { r with unit := r.unit * Nat.pow 10 k.toNat }
  else
    let s := Nat.pow 10 (-k).toNat
    { r with low := r.low * s, value := r.value * s, high := r.high * s }

/-- Whether `c` units lie in the interval. -/
def contains (r : RoundingInterval) (c : Nat) : Bool :=
  if r.closed then r.low ≤ c * r.unit && c * r.unit ≤ r.high
  else r.low < c * r.unit && c * r.unit < r.high

/-- The number of whole units nearest to the value among its two neighbours that lie in the
interval, the even one of two equally near. -/
def nearest? (r : RoundingInterval) : Option Nat :=
  let c := r.value / r.unit
  let below := r.value - c * r.unit
  let above := (c + 1) * r.unit - r.value
  match r.contains c, r.contains (c + 1) with
  | true, true =>
    if below < above ∨ (below = above ∧ c % 2 = 0) then some c else some (c + 1)
  | true, false => some c
  | false, true => some (c + 1)
  | false, false => none

end RoundingInterval

/-- The exponent `p` with `10 ^ (p - 1) ≤ value < 10 ^ p`, found near the binary logarithm. -/
def decimalPoint (r : RoundingInterval) : Int :=
  let guess := ((r.value.log2 : Int) - r.unit.log2) * 30103 / 100000
  let fits (p : Int) : Bool :=
    let g := r.onGrid p
    g.value < g.unit
  if fits (guess - 1) then guess - 1
  else if fits guess then guess
  else if fits (guess + 1) then guess + 1
  else if fits (guess + 2) then guess + 2
  else guess + 3

/-- Tries the grids of `n + 1`, `n + 2`, … digits below the decimal point at `p`. -/
def firstOnGrids (r : RoundingInterval) (p : Int) : (tries n : Nat) → Decimal
  | 0, _ => ⟨0, 0⟩
  | tries + 1, n =>
    let k := p - (n + 1)
    match (r.onGrid k).nearest? with
    | some c => ⟨c, k⟩
    | none => firstOnGrids r p tries (n + 1)

/-- Removes the zeros at the end of a decimal's digits. -/
def Decimal.trim (d : Decimal) : (tries : Nat) → Decimal
  | 0 => d
  | tries + 1 =>
    if d.digits ≠ 0 ∧ d.digits % 10 = 0 then
      Decimal.trim ⟨d.digits / 10, d.exponent + 1⟩ tries
    else d

/-- The decimal with the fewest digits that reads back as `mantissa * 2 ^ exponent`, the nearest of
those; seventeen digits always suffice. -/
def shortestDecimal (mantissa : Nat) (exponent : Int) : Decimal :=
  if mantissa = 0 then ⟨0, 0⟩
  else
    let r := RoundingInterval.of mantissa exponent
    (firstOnGrids r (decimalPoint r) 17 0).trim 17

end MuxBridge
