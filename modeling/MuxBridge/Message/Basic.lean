/-
# Messages

The requests the gateway sends to the host and the responses it gets. A response carries a status
and, where the request asks for one, a payload of the request's own kind.
-/
import MuxBridge.Id
import MuxBridge.Status

namespace MuxBridge

/-- The kinds of requests, and of the payloads that answer them. -/
inductive Kind where
  | listConnections
  | sendCommand
  | setWindowVisible
  | createWindow
  deriving DecidableEq, Repr

/-- All kinds in the order in which messages list them. -/
def Kind.all : List Kind := [.listConnections, .sendCommand, .setWindowVisible, .createWindow]

/-- The name of a kind in messages and logs. -/
def Kind.name : Kind → String
  | .listConnections => "list_connections"
  | .sendCommand => "send_command"
  | .setWindowVisible => "set_window_visible"
  | .createWindow => "create_window"

/-- All names of kinds. -/
def Kind.names : List String := Kind.all.map Kind.name

/-- The kind with a name. -/
def Kind.ofName? (n : String) : Option Kind := Kind.all.find? (·.name == n)

/-- Naming a kind and looking the name up leads back to it. -/
@[simp] theorem Kind.ofName?_name (k : Kind) : Kind.ofName? k.name = some k := by
  cases k <;> decide

/-- What the gateway asks of the host. -/
inductive Request where
  /-- The live connections. -/
  | listConnections
  /-- Runs a tmux command on a connection. -/
  | sendCommand (connection : ConnectionId) (command : String)
  /-- Shows or hides a window. -/
  | setWindowVisible (connection : ConnectionId) (window : WindowId) (visible : Bool)
  /-- Opens a window, next to another one if `affinity` names it. -/
  | createWindow (connection : ConnectionId) (affinity : Option WindowId)
  deriving DecidableEq, Repr, Inhabited

/-- The kind of a request. -/
def Request.kind : Request → Kind
  | .listConnections => .listConnections
  | .sendCommand .. => .sendCommand
  | .setWindowVisible .. => .setWindowVisible
  | .createWindow .. => .createWindow

/-- A live connection as the host reports it, with the session in which it was started. -/
structure Entry where
  connection : ConnectionId
  owner : SessionId
  deriving DecidableEq, Repr, Inhabited

/-- The part of a response that depends on the request. -/
inductive Payload where
  /-- The live connections in the host's order. -/
  | listConnections (entries : List Entry)
  /-- What the command wrote; nothing if tmux refused it. -/
  | sendCommand (output : Option String)
  | setWindowVisible
  /-- The tab that shows the new window. -/
  | createWindow (tab : TabId)
  deriving DecidableEq, Repr, Inhabited

/-- The kind of request that a payload answers. -/
def Payload.kind : Payload → Kind
  | .listConnections _ => .listConnections
  | .sendCommand _ => .sendCommand
  | .setWindowVisible => .setWindowVisible
  | .createWindow _ => .createWindow

/-- What the host answers. -/
structure Response where
  status : Status
  payload : Option Payload
  deriving DecidableEq, Repr, Inhabited

namespace Response

/-- Success with a payload. -/
def success (p : Payload) : Response := ⟨.ok, some p⟩

/-- Success without a payload. -/
def empty : Response := ⟨.ok, none⟩

/-- A response of the given status without a payload. -/
def failure (s : Status) : Response := ⟨s, none⟩

end Response

end MuxBridge
