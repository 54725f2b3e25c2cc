/-
# Numerals

The numbers of a JSON text: their spelling and the value a spelling stands for. `Numeral.read` cuts
a numeral off a text, and `Numeral.number?` gives its value. A numeral without point and exponent
that fits 64 bits is that integer; every other one is a double, computed from the digits that fit
64 bits and one multiplication or division by a power of ten, and it has no value beyond the finite
doubles.
-/
import MuxBridge.Json.Basic

namespace MuxBridge

/-- A numeral as it is spelled. -/
structure Numeral where
  negative : Bool
  whole : List Char
  /-- The digits after the point, if there is one. -/
  fraction : Option (List Char)
  /-- The sign and the digits of the exponent, if there is one. -/
  exponent : Option (Bool × List Char)
  deriving DecidableEq, Repr

/-- What the start of a text that should spell a number is. -/
inductive NumeralStart where
  | numeral (n : Numeral) (rest : List Char)
  /-- The text ends inside the numeral. -/
  | cutShort
  /-- No numeral goes on like this. -/
  | malformed
  deriving DecidableEq, Repr

namespace Numeral

/-! ## Spelling -/

/-- The digits at the start of a text, and what follows them. -/
def digits (cs : List Char) : List Char × List Char :=
  (cs.takeWhile (·.isDigit), cs.dropWhile (·.isDigit))

/-- Reads the exponent of a numeral, if it has one. -/
def readExponent (negative : Bool) (whole : List Char) (fraction : Option (List Char))
    (cs : List Char) : NumeralStart :=
  match cs with
  | c :: r =>
    if c = 'e' ∨ c = 'E' then
      let (negativeExponent, r) :=
        match r with
        | '+' :: r => (false, r)
        | '-' :: r => (true, r)
        | r => (false, r)
      match digits r, r with
      | ([], _), [] => .cutShort
      | ([], _), _ => .malformed
      | (ds, rest), _ => .numeral ⟨negative, whole, fraction, some (negativeExponent, ds)⟩ rest
    else .numeral ⟨negative, whole, fraction, none⟩ cs
  | [] => .numeral ⟨negative, whole, fraction, none⟩ []

/-- Reads the fraction of a numeral, if it has one, and what follows. -/
def readFraction (negative : Bool) (whole : List Char) (cs : List Char) : NumeralStart :=
  match cs with
  | '.' :: r =>
    match digits r, r with
    | ([], _), [] => .cutShort
    | ([], _), _ => .malformed
    | (ds, rest), _ => readExponent negative whole (some ds) rest
  | cs => readExponent negative whole none cs

/-- Reads a numeral after its sign: a zero stands alone before the point. -/
def readWhole (negative : Bool) (cs : List Char) : NumeralStart :=
  match digits cs, cs with
  | ([], _), [] => .cutShort
  | ([], _), _ => .malformed
  | ('0' :: _ :: _, _), _ => .malformed
  | (ds, rest), _ => readFraction negative ds rest

/-- Cuts a numeral off the start of a text. -/
def read : List Char → NumeralStart
  | '-' :: r => readWhole true r
  | cs => readWhole false cs

/-! ## Value -/

/-- The value of a decimal digit. -/
def digitValue (c : Char) : Nat := c.toNat - '0'.toNat

/-- The largest natural of 64 bits. -/
def maxWord : Nat := Nat.pow 2 64 - 1

/-- Appends digits to a natural while it stays within 64 bits; the digits that no longer fit are
left over. -/
def accumulate : Nat → List Char → Nat × List Char
  | n, [] => (n, [])
  | n, c :: cs =>
    let m := n * 10 + digitValue c
    if maxWord < m then (n, c :: cs) else accumulate m cs

/-- The double `10 ^ k`. -/
def powerOfTen (k : Nat) : Binary64 := Binary64.ofRatio false (Nat.pow 10 k) 1

/-- `x * 10 ^ exponent`, where the powers of ten go up to 308: a smaller exponent is taken in
several steps, a larger one has no finite result. -/
def scale (x : Binary64) (exponent : Int) : Option Binary64 :=
  if h : exponent < -308 then
    if x.isZero then some x else scale (x.div (powerOfTen 308)) (exponent + 308)
  else if 308 < exponent then
    if x.isZero then some x else none
  else if 0 ≤ exponent then
    let y := x.mul (powerOfTen exponent.toNat)
    if y.isFinite then some y else none
  else some (x.div (powerOfTen (-exponent).toNat))
termination_by (-exponent).toNat
decreasing_by omega

/-- The exponent that digits spell, unless it exceeds 31 bits. -/
def exponentValue (ds : List Char) : Option Nat :=
  let n := ds.foldl (fun n c => n * 10 + digitValue c) 0
  if Nat.pow 2 31 ≤ n then none else some n

/-- The double that a numeral with a point, an exponent or too many digits stands for. -/
def float? (n : Numeral) : Option Binary64 :=
  let signed (x : Binary64) := if n.negative then x.neg else x
  let (significand, left) := accumulate 0 n.whole
  let (significand, point) :=
    match n.fraction with
    | none => (significand, (left.length : Int))
    | some ds =>
      let (s, unread) := accumulate significand ds
      (s, (left.length : Int) - (ds.length - unread.length))
  match n.exponent with
  | none => (scale (Binary64.ofNat significand) point).map signed
  | some (negativeExponent, ds) =>
    match exponentValue ds with
    | none =>
      if significand ≠ 0 ∧ !negativeExponent then none else some (signed (Binary64.zero false))
    | some e =>
      let point := if negativeExponent then point - e else point + e
      (scale (Binary64.ofNat significand) point).map signed

/-- Whether a numeral has neither point nor exponent. -/
def isPlain (n : Numeral) : Bool := n.fraction.isNone && n.exponent.isNone

/-- The value of a numeral. A negative integer is one of 63 bits other than zero. -/
def number? (n : Numeral) : Option Number :=
  let (m, left) := accumulate 0 n.whole
  if n.isPlain ∧ left = [] ∧ (n.negative → 0 < m ∧ m ≤ Nat.pow 2 63) then
    some (.int (if n.negative then -m else m))
  else n.float?.map .float

end Numeral

end MuxBridge
