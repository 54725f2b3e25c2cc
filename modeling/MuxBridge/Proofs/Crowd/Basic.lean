/-
# Crowds of callers

Everything that can happen to one slot while any number of calls ask for its delegate. A `Crowd` is
the gateway with the calls under way and a record of what has become of the others; a `Happening`
is what may come next, from the arrival of a call to the passing of time. Between two happenings
every call is suspended, so `Crowd.run` on all lists of happenings covers all orders in which the
calls can take their steps.

* a call that comes goes as far as it can at once, like one that is resumed;
* a call under way may be resumed at any time, whether it can go on or not;
* what hosts do, and what is built for other slots, is left open (`Happening.meanwhile`).
-/
import MuxBridge.Gateway.Resolution

namespace MuxBridge

/-! ## Records -/

/-- The beginning of a run: which caller ran which factory. -/
structure Beginning where
  caller : Nat
  factory : Factory

/-- The end of a call. -/
structure Ending where
  caller : Nat
  time : Nat
  outcome : Outcome Delegate

/-- A gateway and the calls for the delegate of one of its slots. -/
structure Crowd where
  gateway : Gateway
  /-- The calls under way, in order of arrival. -/
  live : List Resolution
  /-- All calls so far as they came. The number of a caller is its place in this list. -/
  arrivals : List Resolution
  /-- The runs so far. -/
  begun : List Beginning
  /-- What the runs have ended in, as far as they have ended. -/
  results : List (Outcome Blueprint)
  /-- The calls that have ended, the latest last. -/
  ended : List Ending
  /-- The factories offered to the slot so far, taken or not. -/
  offers : List Factory
  /-- How many callers had come when the slot was last emptied. -/
  resetAt : Nat

/-- What may happen next. -/
inductive Happening where
  /-- A call comes. -/
  | call (span : Span) (transport : Transport) (timeout : Option Duration)
  /-- A call under way goes on as far as it can. -/
  | resume (span : Span) (caller : Nat)
  /-- A call under way is dropped from outside. -/
  | abandon (caller : Nat)
  /-- A factory is offered. -/
  | register (attempt : Nat → Attempt)
  /-- The slot is emptied. -/
  | reset
  /-- Time passes. -/
  | elapse (millis : Nat)
  /-- Hosts change in any way, and delegates are built for other slots. -/
  | meanwhile (hosts : Nat → Host) (built : Nat)

/-! ## Runs of factories -/

/-- The result of a call that has ended. -/
def Course.result? {σ α : Type} : Course σ α → Option α
  | .waiting _ => none
  | .ended a => some a

/-- A run of a factory as it starts. -/
def Gateway.launch (g : Gateway) (span : Span) (f : Factory) : Gateway × FactoryRun :=
  let (g, n) := (g.report span .resolving).countRun f
  (g, .resting (f.attempt n) (g.now + (f.attempt n).delay))

namespace Resolution

/-- The factory of which a call starts a run when it goes on, if it starts one, and the gateway in
which it does so. -/
def launching? (g : Gateway) (r : Resolution) : Option (Gateway × Factory) :=
  match (g.slots r.slot).delegate, r.phase with
  | none, .arriving =>
    let g' := g.changeSlot r.slot (·.enter r.caller)
    if r.hasTurn g' then (g.slots r.slot).factory.map (g', ·) else none
  | none, .queued f => if r.hasTurn g then some (g, f) else none
  | _, _ => none

/-- The run that a call is in when it goes on, and the gateway in which the run goes on. -/
def inRun? (g : Gateway) (span : Span) (r : Resolution) : Option (Gateway × FactoryRun) :=
  match r.phase with
  | .running run => some (g, run)
  | _ => (r.launching? g).map fun (g, f) => g.launch span f

/-- What the run of a call ends in when the call goes on, if it ends. -/
def nextResult? (g : Gateway) (span : Span) (r : Resolution) : Option (Outcome Blueprint) :=
  (r.inRun? g span).bind fun (g, run) => (run.resume g span r.transport).2.result?

end Resolution

/-! ## Steps -/

namespace Crowd

/-- A gateway to which nobody has come. -/
def opening (g : Gateway) : Crowd := ⟨g, [], [], [], [], [], [], 0⟩

/-- Nobody has come, and nothing has happened. -/
def start : Crowd := opening .start

/-- The slot that the calls are for. -/
def slot (c : Crowd) (i : Nat) : Slot := c.gateway.slots i

/-- Notes what has become of a call with calls in front of it and behind it. -/
def settle (c : Crowd) (front back : List Resolution) (caller : Nat) :
    Gateway × Course Resolution (Outcome Delegate) → Crowd
  | (g, .waiting r) => { c with gateway := g, live := front ++ r :: back }
  | (g, .ended o) =>
    { c with gateway := g, live := front ++ back, ended := c.ended ++ [⟨caller, g.now, o⟩] }

/-- Notes the run that a call starts. -/
def note (c : Crowd) (caller : Nat) (f : Option Factory) : Crowd :=
  { c with begun := c.begun ++ f.toList.map fun f => ⟨caller, f⟩ }

/-- Notes what a run has ended in. -/
def noteResult (c : Crowd) (o : Option (Outcome Blueprint)) : Crowd :=
  { c with results := c.results ++ o.toList }

/-- Lets a call go on as far as it can. -/
def advance (c : Crowd) (span : Span) (front : List Resolution) (r : Resolution)
    (back : List Resolution) : Crowd :=
  ((c.note r.caller ((r.launching? c.gateway).map (·.2))).noteResult
    (r.nextResult? c.gateway span)).settle front back r.caller (r.resume c.gateway span)

/-- The calls in front of a caller's, and the rest. -/
def splitAt (c : Crowd) (caller : Nat) : List Resolution × List Resolution :=
  -- callers are told apart by their numbers, so the rest begins with the caller's call
  (c.live.takeWhile (·.caller != caller), c.live.dropWhile (·.caller != caller))

/-- A call as it comes. -/
def newcomer (c : Crowd) (i : Nat) (t : Transport) (timeout : Option Duration) : Resolution :=
  .start c.gateway i c.arrivals.length t timeout

/-- What happens. -/
def step (i : Nat) (c : Crowd) : Happening → Crowd
  | .call span t timeout =>
    let r := c.newcomer i t timeout
    { c with arrivals := c.arrivals ++ [r] }.advance span c.live r []
  | .resume span a =>
    match c.splitAt a with
    | (front, r :: back) => c.advance span front r back
    | (_, []) => c
  | .abandon a =>
    match c.splitAt a with
    | (front, r :: back) => { c with gateway := r.leave c.gateway, live := front ++ back }
    | (_, []) => c
  | .register attempt =>
    -- the serial number tells the factory from all that were offered before
    let f : Factory := ⟨c.offers.length, attempt⟩
    { c with gateway := (c.gateway.register i f).1, offers := c.offers ++ [f] }
  | .reset => { c with gateway := c.gateway.reset i, resetAt := c.arrivals.length }
  | .elapse millis => { c with gateway := { c.gateway with now := c.gateway.now + millis } }
  | .meanwhile hosts built =>
    { c with gateway :=
        { c.gateway with hosts := hosts, delegates := c.gateway.delegates + built } }

/-- What comes of happenings one after the other. -/
def run (i : Nat) (c : Crowd) (hs : List Happening) : Crowd := hs.foldl (step i) c

end Crowd

end MuxBridge
