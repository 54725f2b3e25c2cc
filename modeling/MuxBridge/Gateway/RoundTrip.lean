/-
# Round trips

A request on its way to a host and back. The host notes the request at once and answers after its
delay, or never. Deadlines run from the start; a reply that is there counts, however late the
deadline, and of several deadlines that have passed the innermost one cuts the round trip off.
-/
import MuxBridge.Gateway.Basic

namespace MuxBridge

/-- A round trip that is under way. -/
structure RoundTrip where
  host : Nat
  request : Request
  /-- The time at which the host answers, if it ever does. -/
  answersAt : Option Nat
  /-- The deadlines, the innermost first. -/
  limits : List Limit
  deriving Repr

namespace RoundTrip

/-- Sends a request. -/
def start (g : Gateway) (t : Transport) (q : Request) : Gateway × RoundTrip :=
  let h := g.hosts t.host
  (g.setHost t.host (h.receive q),
    ⟨t.host, q, h.delay.map (g.now + ·), t.deadlines.filterMap fun d => d.map (Limit.start g)⟩)

/-- Whether the reply is there. -/
def isAnswered (g : Gateway) (r : RoundTrip) : Bool := r.answersAt.any (· ≤ g.now)

/-- Takes the reply if it is there, and gives up if a deadline has passed. -/
def resume (g : Gateway) (span : Span) (r : RoundTrip) :
    Gateway × Course RoundTrip (Outcome Response) :=
  if r.isAnswered g then
    let (a, h) := (g.hosts r.host).answer r.request
    (g.setHost r.host h, .ended a)
  else
    match r.limits.find? (Limit.hasPassed g) with
    | some l =>
      (g.report span (.requestTimedOut r.request.kind l.duration),
        .ended (.error (.timeout l.duration.millis)))
    | none => (g, .waiting r)

/-- Sends a request and goes as far as possible at once. -/
def run (g : Gateway) (span : Span) (t : Transport) (q : Request) :
    Gateway × Course RoundTrip (Outcome Response) :=
  let (g, r) := start g t q
  r.resume g span

/-- The times at which the round trip can go on. -/
def alarms (r : RoundTrip) : List Nat := r.answersAt.toList ++ r.limits.map Limit.expires

end RoundTrip

end MuxBridge
