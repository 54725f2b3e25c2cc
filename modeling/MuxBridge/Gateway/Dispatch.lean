/-
# Work on a connection

Commands, visibility of windows and new windows. Each is one round trip over the transport of the
connection's delegate; the payload of the reply says what came of it.
-/
import MuxBridge.Gateway.Listing

namespace MuxBridge

/-- What is to be done on a connection. -/
inductive Work where
  /-- Runs a command of tmux. -/
  | command (text : String)
  /-- Shows or hides a window. -/
  | visibility (window : WindowId) (visible : Bool)
  /-- Opens a window, next to another one if there is one to be near to. -/
  | window (affinity : Option WindowId)
  deriving DecidableEq, Repr

namespace Work

/-- The request for a piece of work. -/
def request (c : ConnectionId) : Work → Request
  | .command text => .sendCommand c text
  | .visibility w v => .setWindowVisible c w v
  | .window a => .createWindow c a

/-- The span of a piece of work. -/
def span (c : ConnectionId) : Work → Span
  | .command _ => .command c
  | .visibility .. => .visibility c
  | .window _ => .window c

end Work

/-- What came of work on a connection. -/
inductive Achievement where
  /-- The output of a command. -/
  | output (text : String)
  | visibilitySet
  /-- The new window, or nothing while the host has not caught up with it. -/
  | opened (window : Option WindowId)
  deriving DecidableEq, Repr

/-- Work on a connection that is under way. -/
structure Dispatch where
  connection : Connection
  work : Work
  trip : RoundTrip

namespace Dispatch

/-- Sends the request for a piece of work. -/
def start (g : Gateway) (c : Connection) (w : Work) : Gateway × Dispatch :=
  let q := w.request c.id
  let (g, trip) := RoundTrip.start (g.report (w.span c.id) (.sending q.kind)) c.delegate.transport q
  (g, ⟨c, w, trip⟩)

/-- The span of the work. -/
def span (d : Dispatch) : Span := d.work.span d.connection.id

/-- The window in the tab that the host reported. -/
def openedIn (g : Gateway) (d : Dispatch) (tab : TabId) : Gateway × Outcome Achievement :=
  let g := g.report d.span (.windowCreated tab)
  match d.connection.delegate.directory.window? tab with
  | some w => (g, .ok (.opened (some w)))
  | none => (g.report d.span (.tabNotVisible tab), .ok (.opened none))

/-- What a payload says about the work. -/
def judge (g : Gateway) (d : Dispatch) (p : Option Payload) : Gateway × Outcome Achievement :=
  match d.work, p with
  | .command _, some (.sendCommand (some text)) => (g, .ok (.output text))
  | .command _, _ => (g, .error (.incomplete "command output"))
  | .visibility .., _ => (g, .ok .visibilitySet)
  | .window _, some (.createWindow tab) => d.openedIn g tab
  | .window _, none => (g.report d.span .noTabReported, .ok (.opened none))
  | .window _, some _ => (g, .error (.incomplete "tab id"))

/-- What a reply says about the work. -/
def conclude (g : Gateway) (d : Dispatch) (reply : Outcome Response) :
    Gateway × Outcome Achievement :=
  match reply with
  | .error e => (g, .error e)
  | .ok r =>
    match r.result with
    | .error e =>
      (g.report d.span (.requestFailed d.trip.request.kind d.connection.id e), .error e)
    | .ok p => d.judge g p

/-- Goes on as far as possible. -/
def resume (g : Gateway) (d : Dispatch) : Gateway × Course Dispatch (Outcome Achievement) :=
  match d.trip.resume g d.span with
  | (g, .waiting trip) => (g, .waiting { d with trip := trip })
  | (g, .ended reply) =>
    let (g, o) := d.conclude g reply
    (g, .ended o)

/-- The times at which the work can go on. -/
def alarms (d : Dispatch) : List Nat := d.trip.alarms

end Dispatch

end MuxBridge
