/-
# Listings

The connections that the host reports, each of them bound to the delegate of the slot. A listing
resolves the delegate and then makes one round trip over the transport that it was given.
-/
import MuxBridge.Gateway.Resolution

namespace MuxBridge

/-- A live connection with the delegate that it was listed with. -/
structure Connection where
  id : ConnectionId
  owner : SessionId
  delegate : Delegate
  deriving DecidableEq, Repr, Inhabited

namespace Connection

/-- The connection of an entry. -/
def ofEntry (d : Delegate) (e : Entry) : Connection := ⟨e.connection, e.owner, d⟩

/-- The session in which the connection was started, if the host still has it. -/
def owningSession (c : Connection) : Option SessionId := c.delegate.directory.session? c.owner

/-- The text that identifies a connection together with its session. -/
def text (c : Connection) : String :=
  "TmuxConnection \x7b connection_id: ConnectionId(" ++ Quoted.write c.id.text ++
    "), owning_session_id: SessionId(" ++ Quoted.write c.owner.text ++ "), .. \x7d"

end Connection

/-- A listing that is under way. -/
inductive Listing where
  /-- Gets the delegate. -/
  | resolving (r : Resolution)
  /-- Asks the host. -/
  | asking (d : Delegate) (trip : RoundTrip)

namespace Listing

/-- The transport over which the host is asked. -/
def start (g : Gateway) (slot caller : Nat) (t : Transport) (timeout : Option Duration) : Listing :=
  .resolving (.start g slot caller t timeout)

/-- What a reply says about the connections. -/
def conclude (g : Gateway) (d : Delegate) (reply : Outcome Response) :
    Gateway × Outcome (List Connection) :=
  match reply with
  | .error e => (g, .error e)
  | .ok r =>
    match r.result with
    | .error e => (g.report .listing (.listingFailed e), .error e)
    | .ok (some (.listConnections es)) =>
      (g.report .listing (.found es.length), .ok (es.map (Connection.ofEntry d)))
    | .ok none => (g.report .listing (.found 0), .ok [])
    | .ok (some _) => (g, .error (.incomplete "connection list"))

/-- Goes on with the round trip. -/
def resumeTrip (g : Gateway) (d : Delegate) (trip : RoundTrip) :
    Gateway × Course Listing (Outcome (List Connection)) :=
  match trip.resume g .listing with
  | (g, .waiting trip) => (g, .waiting (.asking d trip))
  | (g, .ended reply) =>
    let (g, o) := conclude g d reply
    (g, .ended o)

/-- Goes on as far as possible. -/
def resume (g : Gateway) : Listing → Gateway × Course Listing (Outcome (List Connection))
  | .resolving r =>
    match r.resume g .listing with
    | (g, .waiting r) => (g, .waiting (.resolving r))
    | (g, .ended (.error e)) => (g, .ended (.error e))
    | (g, .ended (.ok d)) =>
      let (g, trip) := RoundTrip.start (g.report .listing .listing) r.transport .listConnections
      resumeTrip g d trip
  | .asking d trip => resumeTrip g d trip

/-- Whether the listing can go on without the clock. -/
def isReady (g : Gateway) : Listing → Bool
  | .resolving r => r.isReady g
  | .asking .. => false

/-- The times at which the listing can go on. -/
def alarms : Listing → List Nat
  | .resolving r => r.alarms
  | .asking _ trip => trip.alarms

/-- The first connection with an identifier. -/
def find (id : ConnectionId) (cs : List Connection) : Option Connection := cs.find? (·.id == id)

end Listing

end MuxBridge
