/-
# Calls

Everything that a user of the gateway may have under way, as one type: resolutions, listings, work
on connections, plain round trips, and rest. A call is resumed when it is ready or when one of its
alarms goes off.
-/
import MuxBridge.Gateway.Dispatch

namespace MuxBridge

/-- A call that is under way. -/
inductive Call where
  | resolution (r : Resolution)
  | listing (l : Listing)
  | dispatch (d : Dispatch)
  | roundTrip (t : RoundTrip)
  /-- Does nothing until a time. -/
  | rest (time : Nat)

/-- What a call ends with when it does not fail. -/
inductive Yield where
  /-- The delegate, and the transport that the call was given. -/
  | delegate (d : Delegate) (given : Transport)
  | connections (cs : List Connection)
  | achievement (a : Achievement)
  | response (r : Response)
  | rested

namespace Call

/-- Goes on as far as possible. -/
def resume (g : Gateway) : Call → Gateway × Course Call (Outcome Yield)
  | .resolution r =>
    let (g, c) := r.resume g .none
    (g, c.map .resolution (·.map (Yield.delegate · r.transport)))
  | .listing l =>
    let (g, c) := l.resume g
    (g, c.map .listing (·.map .connections))
  | .dispatch d =>
    let (g, c) := d.resume g
    (g, c.map .dispatch (·.map .achievement))
  | .roundTrip t =>
    let (g, c) := t.resume g .none
    (g, c.map .roundTrip (·.map .response))
  | .rest time => (g, if time ≤ g.now then .ended (.ok .rested) else .waiting (.rest time))

/-- Whether the call can go on without the clock. -/
def isReady (g : Gateway) : Call → Bool
  | .resolution r => r.isReady g
  | .listing l => l.isReady g
  | _ => false

/-- The times at which the call can go on. -/
def alarms : Call → List Nat
  | .resolution r => r.alarms
  | .listing l => l.alarms
  | .dispatch d => d.alarms
  | .roundTrip t => t.alarms
  | .rest time => [time]

end Call

end MuxBridge
