/-
# Delegates and their slots

A delegate looks up sessions and windows for connections and carries the transport of their round
trips. It is built by a factory on first use and installed in a slot for good. Callers who find the
slot empty take turns: `Turn` says whose it is and who waits for it, in order of arrival.
-/
import MuxBridge.Duration
import MuxBridge.Gateway.Host

namespace MuxBridge

/-! ## Transports -/

/-- A way to a host, wrapped in any number of deadlines. Two transports are the same only if they
share their serial number. -/
structure Transport where
  serial : Nat
  /-- The deadlines around a round trip, the innermost first. -/
  deadlines : List (Option Duration)
  /-- The number of the host at the other end. -/
  host : Nat
  deriving DecidableEq, Repr, Inhabited

/-- The transport as another one with a deadline around it. -/
def Transport.wrap (t : Transport) (serial : Nat) (deadline : Option Duration) : Transport :=
  ⟨serial, t.deadlines ++ [deadline], t.host⟩

/-! ## Directories -/

/-- The sessions and windows that a delegate knows. -/
structure Directory where
  sessions : List SessionId
  /-- The window of every tab, the first entry of a tab counting. -/
  windows : List (TabId × WindowId)
  deriving DecidableEq, Repr, Inhabited

namespace Directory

/-- Nothing is known. -/
def empty : Directory := ⟨[], []⟩

/-- Adds a session. -/
def withSession (d : Directory) (s : SessionId) : Directory :=
  { d with sessions := s :: d.sessions }

/-- Gives a tab a window in place of any it had. -/
def withWindow (d : Directory) (t : TabId) (w : WindowId) : Directory :=
  { d with windows := (t, w) :: d.windows }

/-- Finds a session. -/
def session? (d : Directory) (s : SessionId) : Option SessionId :=
  if s ∈ d.sessions then some s else none

/-- Finds the window of a tab. -/
def window? (d : Directory) (t : TabId) : Option WindowId := d.windows.lookup t

/-- A session is found once it has been added, and an added one hides no other. -/
theorem session?_withSession (d : Directory) (s s' : SessionId) :
    (d.withSession s).session? s' = if s' = s then some s' else d.session? s' := by
  by_cases h : s' = s <;> simp [session?, withSession, h]

/-- Of the windows given to a tab the last one counts, and other tabs keep theirs. -/
theorem window?_withWindow (d : Directory) (t t' : TabId) (w : WindowId) :
    (d.withWindow t w).window? t' = if t' = t then some w else d.window? t' := by
  by_cases h : t' = t
  · simp [window?, withWindow, h]
  · simp [window?, withWindow, List.lookup_cons, beq_eq_false_iff_ne.2 h, h]

/-- Sessions have no part in finding windows. -/
@[simp] theorem window?_withSession (d : Directory) (s : SessionId) (t : TabId) :
    (d.withSession s).window? t = d.window? t := rfl

/-- Windows have no part in finding sessions. -/
@[simp] theorem session?_withWindow (d : Directory) (t : TabId) (w : WindowId) (s : SessionId) :
    (d.withWindow t w).session? s = d.session? s := rfl

/-- The directory of sessions and windows that are added in order. -/
def ofLists (sessions : List SessionId) (windows : List (TabId × WindowId)) : Directory :=
  windows.foldl (fun d p => d.withWindow p.1 p.2) (sessions.foldl withSession empty)

end Directory

/-! ## Delegates and factories -/

/-- A delegate. Delegates are numbered in the order in which they are built. -/
structure Delegate where
  number : Nat
  transport : Transport
  directory : Directory
  deriving DecidableEq, Repr, Inhabited

/-- What a delegate is built from. Without a transport of its own it gets that of the caller. -/
structure Blueprint where
  transport : Option Transport
  directory : Directory
  deriving DecidableEq, Repr

/-- The delegate with a number that is built for a caller. -/
def Blueprint.build (b : Blueprint) (number : Nat) (t : Transport) : Delegate :=
  ⟨number, b.transport.getD t, b.directory⟩

/-- One run of a factory: it takes its time, may ask the host for its connections on the way, and
fails or has a delegate to build. -/
structure Attempt where
  delay : Nat
  probe : Bool
  outcome : Outcome Blueprint

/-- A registered factory: what every one of its runs does, counted from zero. -/
structure Factory where
  serial : Nat
  attempt : Nat → Attempt

/-! ## Turns -/

/-- Whose turn it is, and the callers who wait for theirs in order of arrival. -/
structure Turn where
  holder : Option Nat
  queue : List Nat
  deriving DecidableEq, Repr, Inhabited

namespace Turn

/-- It is nobody's turn. -/
def free : Turn := ⟨none, []⟩

/-- Takes the turn if it is nobody's, and waits for it otherwise. -/
def enter (t : Turn) (caller : Nat) : Turn :=
  match t.holder with
  | none => { t with holder := some caller }
  | some _ => { t with queue := t.queue ++ [caller] }

/-- The turn of the first who waits. -/
def pass : List Nat → Turn
  | [] => free
  | c :: cs => ⟨some c, cs⟩

/-- Passes the turn on, or no longer waits for it. -/
def leave (t : Turn) (caller : Nat) : Turn :=
  if t.holder = some caller then pass t.queue else { t with queue := t.queue.erase caller }

/-- Who comes while it is nobody's turn has it. -/
theorem enter_of_holder_none {t : Turn} (h : t.holder = none) (c : Nat) :
    t.enter c = ⟨some c, t.queue⟩ := by
  simp [enter, h]

/-- Who comes while it is somebody's turn waits behind all others. -/
theorem enter_of_holder_some {t : Turn} {a : Nat} (h : t.holder = some a) (c : Nat) :
    t.enter c = ⟨some a, t.queue ++ [c]⟩ := by
  simp [enter, h]

/-- When the turn is passed on, the first who waits has it. -/
theorem leave_of_holder {t : Turn} {c : Nat} (h : t.holder = some c) :
    t.leave c = pass t.queue := by
  simp [leave, h]

/-- Who leaves the queue takes the turn from nobody. -/
theorem holder_leave_of_ne {t : Turn} {c : Nat} (h : t.holder ≠ some c) :
    (t.leave c).holder = t.holder := by
  simp [leave, h]

end Turn

/-! ## Slots -/

/-- The place of a factory and of the delegate that it built. -/
structure Slot where
  factory : Option Factory
  delegate : Option Delegate
  turn : Turn

namespace Slot

/-- Nothing is registered and nothing is installed. -/
def empty : Slot := ⟨none, none, .free⟩

instance : Inhabited Slot := ⟨empty⟩

/-- Registers a factory, unless there is one. -/
def register (s : Slot) (f : Factory) : Outcome Slot :=
  match s.factory with
  | some _ => .error .factoryTaken
  | none => .ok { s with factory := some f }

/-- Forgets the factory and the delegate. Who has the turn keeps it. -/
def reset (s : Slot) : Slot := { s with factory := none, delegate := none }

/-- Installs a delegate. -/
def install (s : Slot) (d : Delegate) : Slot := { s with delegate := some d }

/-- Takes the turn or waits for it. -/
def enter (s : Slot) (caller : Nat) : Slot := { s with turn := s.turn.enter caller }

/-- Passes the turn on or stops waiting for it. -/
def leave (s : Slot) (caller : Nat) : Slot := { s with turn := s.turn.leave caller }

/-- The text that tells whether a factory is registered and a delegate installed. -/
def text (s : Slot) : String :=
  "DelegateSlot \x7b has_factory: " ++ (if s.factory.isSome then "true" else "false") ++
    ", resolved: " ++ (if s.delegate.isSome then "true" else "false") ++ " \x7d"

end Slot

end MuxBridge
