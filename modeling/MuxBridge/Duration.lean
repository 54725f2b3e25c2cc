/-
# Durations

Lengths of time in whole nanoseconds, with the two roundings that deadlines use: `millis` counts
the whole milliseconds for messages, and `ticks` is the number of milliseconds after which a timer
has passed the duration. `Duration.text` writes a duration in its largest fitting unit.
-/

namespace MuxBridge

/-- A length of time. -/
structure Duration where
  nanos : Nat
  deriving DecidableEq, Repr, Inhabited

namespace Duration

/-- A number of microseconds as a duration. -/
def ofMicros (n : Nat) : Duration := ⟨n * 1000⟩

/-- A number of milliseconds as a duration. -/
def ofMillis (n : Nat) : Duration := ⟨n * 1000000⟩

/-- How many numbers there are of 64 bits. -/
def words : Nat := 18446744073709551616

/-- The whole milliseconds of a duration, as far as they fit 64 bits. -/
def millis (d : Duration) : Nat := d.nanos / 1000000 % words

/-- The milliseconds after which a timer with this duration fires: a started millisecond counts. -/
def ticks (d : Duration) : Nat := (d.nanos + 999999) / 1000000

/-- The whole milliseconds of a duration are all of them if their number has 64 bits. -/
theorem millis_of_lt {d : Duration} (h : d.nanos / 1000000 < words) :
    d.millis = d.nanos / 1000000 :=
  Nat.mod_eq_of_lt h

/-- A timer of whole milliseconds fires after exactly that many. -/
@[simp] theorem ticks_ofMillis (n : Nat) : (ofMillis n).ticks = n := by
  simp [ofMillis, ticks]; omega

/-- Whole milliseconds lose nothing. -/
theorem millis_ofMillis {n : Nat} (h : n < words) : (ofMillis n).millis = n := by
  have hnanos : (ofMillis n).nanos / 1000000 = n := Nat.mul_div_cancel n (by decide)
  rw [millis_of_lt (by rwa [hnanos]), hnanos]

/-- The digits of a fraction: `width` places, without the zeros at the end. -/
def fractionDigits (n width : Nat) : List Char :=
  let ds := Nat.toDigits 10 n
  let padded := List.replicate (width - ds.length) '0' ++ ds
  (padded.reverse.dropWhile (· == '0')).reverse

/-- A number of units with its fraction. -/
def inUnit (whole rest width : Nat) (unit : String) : String :=
  let fraction := if rest = 0 then [] else '.' :: fractionDigits rest width
  String.ofList (Nat.toDigits 10 whole ++ fraction) ++ unit

/-- The text of a duration: in seconds, milliseconds, microseconds or nanoseconds, whichever is the
largest unit of which it holds at least one. -/
def text (d : Duration) : String :=
  if 1000000000 ≤ d.nanos then inUnit (d.nanos / 1000000000) (d.nanos % 1000000000) 9 "s"
  else if 1000000 ≤ d.nanos then inUnit (d.nanos / 1000000) (d.nanos % 1000000) 6 "ms"
  else if 1000 ≤ d.nanos then inUnit (d.nanos / 1000) (d.nanos % 1000) 3 "µs"
  else inUnit d.nanos 0 0 "ns"

end Duration

end MuxBridge
