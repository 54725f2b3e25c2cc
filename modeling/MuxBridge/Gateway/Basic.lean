/-
# The gateway

The state that calls share: the clock, the hosts, the slots, how often every factory ran, and the
log. A call that cannot end at once yields a `Course`: either it waits, with what it needs to go on,
or it has ended. Time passes only while all calls wait, so every call looks at the clock when it is
resumed and never moves it.
-/
import MuxBridge.Gateway.Delegate
import MuxBridge.Gateway.Log

namespace MuxBridge

/-- A call that waits with a state, or that has ended. -/
inductive Course (σ α : Type) where
  | waiting (state : σ)
  | ended (result : α)
  deriving Repr

namespace Course

variable {σ τ α β : Type}

/-- The call as a part of another one. -/
def map (f : σ → τ) (g : α → β) : Course σ α → Course τ β
  | .waiting s => .waiting (f s)
  | .ended a => .ended (g a)

end Course

/-- A function with another value at one point. -/
def setAt {α : Type} (f : Nat → α) (i : Nat) (a : α) : Nat → α := fun j => if j = i then a else f j

@[simp] theorem setAt_same {α : Type} (f : Nat → α) (i : Nat) (a : α) : setAt f i a i = a := by
  simp [setAt]

@[simp] theorem setAt_of_ne {α : Type} (f : Nat → α) {i j : Nat} (a : α) (h : j ≠ i) :
    setAt f i a j = f j := by
  simp [setAt, h]

/-- The state of a gateway. -/
structure Gateway where
  /-- The milliseconds since the start. -/
  now : Nat
  hosts : Nat → Host
  slots : Nat → Slot
  /-- The number of runs of every factory. -/
  runs : Nat → Nat
  /-- The number of runs of all factories. -/
  factoryCalls : Nat
  /-- The number of delegates built. -/
  delegates : Nat
  log : List LogRecord

namespace Gateway

/-- A gateway at the start. -/
def start : Gateway := ⟨0, fun _ => default, fun _ => .empty, fun _ => 0, 0, 0, []⟩

instance : Inhabited Gateway := ⟨start⟩

/-- Reports an event. -/
def report (g : Gateway) (span : Span) (e : LogEvent) : Gateway :=
  { g with log := g.log ++ [⟨span, e⟩] }

/-- Replaces a host. -/
def setHost (g : Gateway) (i : Nat) (h : Host) : Gateway := { g with hosts := setAt g.hosts i h }

/-- Replacing a host by one of the same delay changes no delay. -/
theorem delay_setHost (g : Gateway) {i : Nat} {h : Host} (hdelay : h.delay = (g.hosts i).delay)
    (j : Nat) : ((g.setHost i h).hosts j).delay = (g.hosts j).delay := by
  show (setAt g.hosts i h j).delay = _
  by_cases hj : j = i
  · rw [hj, setAt_same, hdelay]
  · rw [setAt_of_ne _ _ hj]

/-- Changes a slot. -/
def changeSlot (g : Gateway) (i : Nat) (f : Slot → Slot) : Gateway :=
  { g with slots := setAt g.slots i (f (g.slots i)) }

/-- Registers a factory in a slot. -/
def register (g : Gateway) (i : Nat) (f : Factory) : Gateway × Outcome Unit :=
  match (g.slots i).register f with
  | .ok s => ({ g with slots := setAt g.slots i s }.report .none .factoryRegistered, .ok ())
  | .error e => (g, .error e)

/-- Empties a slot. -/
def reset (g : Gateway) (i : Nat) : Gateway := g.changeSlot i Slot.reset

/-- Counts a run of a factory and tells which one it is. -/
def countRun (g : Gateway) (f : Factory) : Gateway × Nat :=
  let n := g.runs f.serial
  ({ g with runs := setAt g.runs f.serial (n + 1), factoryCalls := g.factoryCalls + 1 }, n)

/-- Builds a delegate for a caller. -/
def build (g : Gateway) (b : Blueprint) (t : Transport) : Gateway × Delegate :=
  ({ g with delegates := g.delegates + 1 }, b.build g.delegates t)

end Gateway

/-- A deadline that is running. -/
structure Limit where
  duration : Duration
  /-- The time on the clock at which it has passed. -/
  expires : Nat
  deriving DecidableEq, Repr

/-- Starts a deadline. -/
def Limit.start (g : Gateway) (d : Duration) : Limit := ⟨d, g.now + d.ticks⟩

/-- Whether a deadline has passed. -/
def Limit.hasPassed (g : Gateway) (l : Limit) : Bool := l.expires ≤ g.now

end MuxBridge
