/-
# Resolutions

How a caller gets the delegate of a slot. An installed delegate is taken at once. Otherwise the
caller waits for its turn, looks again, and runs the factory that was registered when it came;
the first run that succeeds installs its delegate, and a run that fails leaves the slot empty for
the next caller. A deadline that passes takes the caller out of the queue, or ends its run and
passes the turn on.
-/
import MuxBridge.Gateway.RoundTrip

namespace MuxBridge

/-! ## Runs of a factory -/

/-- A run of a factory that is under way. -/
inductive FactoryRun where
  /-- Takes its time, and then goes on. -/
  | resting (attempt : Attempt) (time : Nat)
  /-- Asks the host for its connections. -/
  | probing (attempt : Attempt) (trip : RoundTrip)

namespace FactoryRun

/-- The end of a probe. -/
def conclude (a : Attempt) (reply : Outcome Response) : Outcome Blueprint :=
  match reply with
  | .error e => .error e
  | .ok r =>
    match r.result with
    | .error e => .error e
    | .ok _ => a.outcome

/-- Goes on with a probe. -/
def resumeProbe (g : Gateway) (span : Span) (a : Attempt) (trip : RoundTrip) :
    Gateway × Course FactoryRun (Outcome Blueprint) :=
  let (g, c) := trip.resume g span
  (g, c.map (.probing a) (conclude a))

/-- Goes on as far as possible. -/
def resume (g : Gateway) (span : Span) (t : Transport) :
    FactoryRun → Gateway × Course FactoryRun (Outcome Blueprint)
  | .resting a time =>
    if time ≤ g.now then
      if a.probe then
        let (g, trip) := RoundTrip.start g t .listConnections
        resumeProbe g span a trip
      else (g, .ended a.outcome)
    else (g, .waiting (.resting a time))
  | .probing a trip => resumeProbe g span a trip

/-- The times at which the run can go on. -/
def alarms : FactoryRun → List Nat
  | .resting _ time => [time]
  | .probing _ trip => trip.alarms

end FactoryRun

/-! ## Resolutions -/

/-- How far a caller has come. -/
inductive Phase where
  /-- Has just come. -/
  | arriving
  /-- Waits for its turn. -/
  | queued (factory : Factory)
  /-- Has the turn and runs the factory. -/
  | running (run : FactoryRun)

/-- A call for the delegate of a slot. -/
structure Resolution where
  slot : Nat
  /-- Tells the caller from all others. -/
  caller : Nat
  transport : Transport
  limit : Option Limit
  phase : Phase

namespace Resolution

/-- A new call. Its deadline runs from now on. -/
def start (g : Gateway) (slot caller : Nat) (t : Transport) (timeout : Option Duration) :
    Resolution :=
  ⟨slot, caller, t, timeout.map (Limit.start g), .arriving⟩

/-- Whether the caller has the turn. -/
def hasTurn (g : Gateway) (r : Resolution) : Bool :=
  (g.slots r.slot).turn.holder == some r.caller

/-- Passes the turn on, or leaves the queue. -/
def leave (g : Gateway) (r : Resolution) : Gateway := g.changeSlot r.slot (·.leave r.caller)

/-- Ends a run of the factory: installs its delegate, or reports its failure. Either way the turn
passes on. -/
def concludeRun (g : Gateway) (span : Span) (r : Resolution) (o : Outcome Blueprint) :
    Gateway × Outcome Delegate :=
  match o with
  | .error e => (r.leave (g.report span (.factoryFailed e)), .error e)
  | .ok b =>
    let (g, d) := g.build b r.transport
    (r.leave ((g.changeSlot r.slot (·.install d)).report span .installed), .ok d)

/-- Goes on with a run of the factory. -/
def resumeRun (g : Gateway) (span : Span) (r : Resolution) (run : FactoryRun) :
    Gateway × Course Resolution (Outcome Delegate) :=
  match run.resume g span r.transport with
  | (g, .waiting run) => (g, .waiting { r with phase := .running run })
  | (g, .ended o) =>
    let (g, d) := r.concludeRun g span o
    (g, .ended d)

/-- Looks again once it has the turn, and runs the factory if there is still no delegate. -/
def takeTurn (g : Gateway) (span : Span) (r : Resolution) (f : Factory) :
    Gateway × Course Resolution (Outcome Delegate) :=
  match (g.slots r.slot).delegate with
  | some d => (r.leave g, .ended (.ok d))
  | none =>
    let (g, n) := (g.report span .resolving).countRun f
    let a := f.attempt n
    r.resumeRun g span (.resting a (g.now + a.delay))

/-- Comes to the slot: takes the delegate that is there, or waits for the turn to run the
factory. -/
def arrive (g : Gateway) (span : Span) (r : Resolution) :
    Gateway × Course Resolution (Outcome Delegate) :=
  match (g.slots r.slot).delegate, (g.slots r.slot).factory with
  | some d, _ => (g, .ended (.ok d))
  | none, none => (g.report span .noFactory, .ended (.error .noFactory))
  | none, some f =>
    let g := g.changeSlot r.slot (·.enter r.caller)
    if r.hasTurn g then r.takeTurn g span f else (g, .waiting { r with phase := .queued f })

/-- Goes on as far as possible, whatever the deadline. -/
def resumeUnlimited (g : Gateway) (span : Span) (r : Resolution) :
    Gateway × Course Resolution (Outcome Delegate) :=
  match r.phase with
  | .arriving => r.arrive g span
  | .queued f => if r.hasTurn g then r.takeTurn g span f else (g, .waiting r)
  | .running run => r.resumeRun g span run

/-- Gives up a call whose deadline has passed. -/
def expire (g : Gateway) (span : Span) (r : Resolution) (l : Limit) : Gateway × Outcome Delegate :=
  ((r.leave g).report span (.resolutionTimedOut l.duration),
    .error (.resolutionTimeout l.duration.millis))

/-- Goes on as far as possible, and gives up if it still waits when its deadline has passed. -/
def resume (g : Gateway) (span : Span) (r : Resolution) :
    Gateway × Course Resolution (Outcome Delegate) :=
  match r.resumeUnlimited g span with
  | (g, .ended o) => (g, .ended o)
  | (g, .waiting r) =>
    match r.limit.filter (Limit.hasPassed g) with
    | none => (g, .waiting r)
    | some l =>
      let (g, o) := r.expire g span l
      (g, .ended o)

/-- Whether the call can go on without the clock: it waited for its turn and has it now. -/
def isReady (g : Gateway) (r : Resolution) : Bool :=
  match r.phase with
  | .queued _ => r.hasTurn g
  | _ => false

/-- The times at which the call can go on. -/
def alarms (r : Resolution) : List Nat :=
  (r.limit.map Limit.expires).toList ++
    match r.phase with
    | .running run => run.alarms
    | _ => []

end Resolution

end MuxBridge
