/-
# A gateway in service

All that users can do with a gateway, over any slots and transports and in any order: a `Service`
is the gateway with the calls of the operations under way and a ledger of all requests that were
sent. An `Occurrence` is what may come next; between two of them every call is suspended, so
`Service.run` on all lists of occurrences covers all ways in which operations can overlap.

* an operation that begins goes as far as it can at once, like one that is resumed;
* every request in the ledger is put down to an operation, sent by the operation itself or by a run
  of a factory in its course;
* hosts may change the way they answer at any time (`Occurrence.retune`).
-/
import MuxBridge.Gateway.Call
import MuxBridge.Proofs.Crowd.Basic

namespace MuxBridge

/-! ## Operations -/

/-- What a user may ask of the gateway. -/
inductive Operation where
  | ensure (slot : Nat) (transport : Transport) (timeout : Option Duration)
  | list (slot : Nat) (transport : Transport) (timeout : Option Duration)
  | find (slot : Nat) (transport : Transport) (timeout : Option Duration) (id : ConnectionId)
  | owningSession (connection : Connection)
  | work (connection : Connection) (work : Work)

/-- What an operation is answered when it does not fail. -/
inductive Finding where
  | yielded (y : Yield)
  | found (c : Option Connection)
  | session (s : Option SessionId)

/-- A request with the transport that it was given to. -/
structure Sending where
  transport : Transport
  request : Request
  deriving DecidableEq

namespace Operation

/-- What an operation makes of what its call has come to. -/
def finding (op : Operation) (y : Yield) : Finding :=
  match op, y with
  | .find _ _ _ id, .connections cs => .found (Listing.find id cs)
  | _, y => .yielded y

/-- Begins an operation. A lookup of a session ends at once. -/
def start (g : Gateway) (number : Nat) : Operation → Gateway × Course Call Finding
  | .ensure i t timeout => (g, .waiting (.resolution (.start g i number t timeout)))
  | .list i t timeout | .find i t timeout _ =>
    (g, .waiting (.listing (.start g i number t timeout)))
  | .owningSession c => (g, .ended (.session c.owningSession))
  | .work c w =>
    let (g, d) := Dispatch.start g c w
    (g, .waiting (.dispatch d))

/-- What an operation sends as it begins. -/
def startSendings : Operation → List Sending
  | .work c w => [⟨c.delegate.transport, w.request c.id⟩]
  | _ => []

end Operation

/-! ## What calls do when they go on -/

/-- The state of a call that waits. -/
def Course.state? {σ α : Type} : Course σ α → Option σ
  | .waiting s => some s
  | .ended _ => none

/-- What a run of a factory sends when it goes on. -/
def FactoryRun.sendings (g : Gateway) (t : Transport) : FactoryRun → List Sending
  | .resting a time => if time ≤ g.now ∧ a.probe then [⟨t, .listConnections⟩] else []
  | .probing .. => []

namespace Resolution

/-- What a call's run of the factory sends when the call goes on. -/
def sendings (g : Gateway) (span : Span) (r : Resolution) : List Sending :=
  match r.inRun? g span with
  | some (g, run) => run.sendings g r.transport
  | none => []

/-- The delegate that a call ends with when it goes on. -/
def resolved? (g : Gateway) (span : Span) (r : Resolution) : Option Delegate :=
  (r.resume g span).2.result?.bind Except.toOption

end Resolution

namespace Listing

/-- What a listing sends itself when it goes on: it asks the host once it has the delegate. -/
def sendings (g : Gateway) : Listing → List Sending
  | .resolving r =>
    if (r.resolved? g .listing).isSome then [⟨r.transport, .listConnections⟩] else []
  | .asking .. => []

/-- Asks the host, which a listing does once it has the delegate. -/
def ask (g : Gateway) (t : Transport) : Gateway × RoundTrip :=
  RoundTrip.start (g.report .listing .listing) t .listConnections

/-- The reply that a listing takes when it goes on. -/
def reply? (g : Gateway) : Listing → Option (Outcome Response)
  | .resolving r =>
    match r.resume g .listing with
    | (g, .ended (.ok _)) =>
      let (g, trip) := ask g r.transport
      (trip.resume g .listing).2.result?
    | _ => none
  | .asking _ trip => (trip.resume g .listing).2.result?

end Listing

/-- The tab that work asks the delegate for once it has its reply: the tab of a new window. -/
def Work.asked? (w : Work) : Outcome Response → Option TabId
  | .error _ => none
  | .ok r =>
    match w, r.result with
    | .window _, .ok (some (.createWindow tab)) => some tab
    | _, _ => none

namespace Dispatch

/-- The reply that work takes when it goes on. -/
def reply? (g : Gateway) (d : Dispatch) : Option (Outcome Response) :=
  (d.trip.resume g d.span).2.result?

/-- The tab that work asks the delegate for when it goes on. -/
def lookup? (g : Gateway) (d : Dispatch) : Option TabId := (d.reply? g).bind d.work.asked?

end Dispatch

namespace Call

/-- What runs of factories send when a call goes on. -/
def factorySendings (g : Gateway) : Call → List Sending
  | .resolution r => r.sendings g .none
  | .listing (.resolving r) => r.sendings g .listing
  | _ => []

/-- What a call sends itself when it goes on. -/
def ownSendings (g : Gateway) : Call → List Sending
  | .listing l => l.sendings g
  | _ => []

/-- The delegate that a call gets when it goes on. -/
def resolved? (g : Gateway) : Call → Option Delegate
  | .resolution r => r.resolved? g .none
  | .listing (.resolving r) => r.resolved? g .listing
  | _ => none

/-- The round trip of its own that a call is in. -/
def trip? : Call → Option RoundTrip
  | .listing (.asking _ trip) => some trip
  | .dispatch d => some d.trip
  | _ => none

/-- The reply to its own round trip that a call takes when it goes on. -/
def reply? (g : Gateway) : Call → Option (Outcome Response)
  | .listing l => l.reply? g
  | .dispatch d => d.reply? g
  | _ => none

/-- The tabs that a call asks a delegate for when it goes on. -/
def lookups (g : Gateway) : Call → List TabId
  | .dispatch d => (d.lookup? g).toList
  | _ => []

/-- Drops a call from outside: its turn passes on, or its place in the queue is given up. -/
def abandon (g : Gateway) : Call → Gateway
  | .resolution r | .listing (.resolving r) => r.leave g
  | _ => g

end Call

/-! ## The ledger -/

/-- Who sends a request: an operation itself, or a run of a factory in its course. -/
inductive Sender where
  | operation
  | factory
  deriving DecidableEq

/-- An entry of the ledger. -/
structure Posting where
  /-- The operation in whose course the request was sent. -/
  number : Nat
  sender : Sender
  sending : Sending

/-- A gateway with the operations that users have begun. The number of an operation is its place
among them. -/
structure Service where
  gateway : Gateway
  operations : List Operation
  /-- The calls of the operations that are under way. -/
  live : Nat → Option Call
  /-- All requests so far in the order in which they were sent. -/
  ledger : List Posting
  /-- The delegates that operations have got from slots. -/
  resolved : Nat → Option Delegate
  /-- The replies that operations have taken from their own round trips. -/
  replied : Nat → Option (Outcome Response)
  /-- The tabs that operations have asked delegates for. -/
  lookups : Nat → List TabId
  /-- What operations have ended in. -/
  ended : Nat → Option (Outcome Finding)

/-- What may happen next. -/
inductive Occurrence where
  /-- An operation begins. -/
  | begin (op : Operation)
  /-- An operation under way goes on as far as it can. -/
  | resume (number : Nat)
  /-- An operation under way is dropped from outside. -/
  | abandon (number : Nat)
  /-- A factory is offered to a slot. -/
  | register (slot : Nat) (f : Factory)
  /-- A slot is emptied. -/
  | reset (slot : Nat)
  /-- Time passes. -/
  | elapse (millis : Nat)
  /-- A host changes the way it answers. -/
  | retune (host : Nat) (responder : Responder) (delay : Option Nat)

namespace Service

/-- Nobody has asked anything of the gateway. -/
def opening (g : Gateway) : Service :=
  ⟨g, [], fun _ => none, [], fun _ => none, fun _ => none, fun _ => [], fun _ => none⟩

/-- Puts requests down to an operation. -/
def post (number : Nat) (sender : Sender) (l : List Sending) : List Posting :=
  l.map (Posting.mk number sender)

/-- Begins an operation. -/
def enroll (s : Service) (op : Operation) : Service :=
  let n := s.operations.length
  let (g, c) := op.start s.gateway n
  { s with
    gateway := g
    operations := s.operations ++ [op]
    live := setAt s.live n c.state?
    ledger := s.ledger ++ post n .operation op.startSendings
    ended := setAt s.ended n (c.result?.map Except.ok) }

/-- Lets the call of an operation go on as far as it can. -/
def advance (s : Service) (n : Nat) : Service :=
  match s.operations[n]?, s.live n with
  | some op, some call =>
    let g := s.gateway
    let (g', c) := call.resume g
    { s with
      gateway := g'
      live := setAt s.live n c.state?
      ledger := s.ledger ++ post n .factory (call.factorySendings g) ++
        post n .operation (call.ownSendings g)
      resolved := setAt s.resolved n ((call.resolved? g).or (s.resolved n))
      replied := setAt s.replied n ((call.reply? g).or (s.replied n))
      lookups := setAt s.lookups n (s.lookups n ++ call.lookups g)
      ended := setAt s.ended n (c.result?.map fun o => o.map op.finding) }
  | _, _ => s

/-- What happens. -/
def step (s : Service) : Occurrence → Service
  | .begin op => (s.enroll op).advance s.operations.length
  | .resume n => s.advance n
  | .abandon n =>
    match s.live n with
    | some call => { s with gateway := call.abandon s.gateway, live := setAt s.live n none }
    | none => s
  | .register i f => { s with gateway := (s.gateway.register i f).1 }
  | .reset i => { s with gateway := s.gateway.reset i }
  | .elapse millis => { s with gateway := { s.gateway with now := s.gateway.now + millis } }
  | .retune i responder delay =>
    { s with gateway :=
        s.gateway.setHost i { s.gateway.hosts i with responder := responder, delay := delay } }

/-- What comes of occurrences one after the other. -/
def run (s : Service) (os : List Occurrence) : Service := os.foldl step s

end Service

end MuxBridge
