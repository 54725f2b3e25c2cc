/-
# Schemas of messages

What the published schemas say about identifiers, statuses, requests and responses. `MessageType`
lists the types that have one.
-/
import MuxBridge.Message.Basic
import MuxBridge.Schema.Basic

namespace MuxBridge

namespace Schema

/-! ## Identifiers and statuses -/

/-- The schema of an identifier. -/
def ofIdKind : IdKind → Schema
  | .connection =>
    .described ("Identifier of a tmux integration connection.\n\n" ++
      "Unique per gateway; the host also uses it as a human-readable\n" ++
      "description of the connection.") .string
  | .session =>
    .described ("Identifier of a host terminal session (e.g. the gateway session\n" ++
      "where `tmux -CC` runs).") .string
  | .tab => .described "Identifier of a host tab." .string
  | .window =>
    .described "Identifier of a tmux window as reported by the tmux server (e.g. `@3`)." .string

/-- The name under which an identifier is published. -/
def idName : IdKind → String
  | .connection => "ConnectionId"
  | .session => "SessionId"
  | .tab => "TabId"
  | .window => "WindowId"

/-- A reference to an identifier. -/
def id (kind : IdKind) : Schema := .named (idName kind) (ofIdKind kind)

/-- What a status means. -/
def statusText : Status → String
  | .ok => "The request succeeded."
  | .invalidRequest => "The request was malformed or not understood."
  | .invalidConnection => "No tmux connection has the given ID."
  | .invalidWindow => "No tmux window has the given ID."

/-- The schema of a status: one of the names. -/
def status : Schema :=
  .described "Outcome code carried on every tmux response."
    (.oneOf (Status.all.map fun s => .described (statusText s) (.constant s.name)))

/-! ## Members -/

/-- A member that must not be missing. -/
def required (name text : String) (s : Schema) : String × Bool × Schema :=
  (name, true, .described text s)

/-- A member that may be missing. -/
def optional (name text : String) (s : Schema) : String × Bool × Schema :=
  (name, false, .described text s)

/-- The objects that are tagged with a kind. -/
def tagged (k : Kind) (text : String) (members : List (String × Bool × Schema)) : Schema :=
  .described text (.object (("type", true, .constant k.name) :: members))

/-! ## Messages -/

/-- The connection that a request is for. -/
def target : String × Bool × Schema := required "connection_id" "Target connection" (id .connection)

/-- The schema of a request. -/
def request : Schema :=
  .described "A tmux request sent to the host application." (.oneOf
    [tagged .listConnections "Enumerate live tmux integration connections." [],
      tagged .sendCommand "Run a tmux command on a connection."
        [target, required "command" "Command text, e.g. `list-sessions`" .string],
      tagged .setWindowVisible "Show or hide a tmux window."
        [target, required "window_id" "tmux window to show or hide" (id .window),
          required "visible" "`true` to show, `false` to hide" .boolean],
      tagged .createWindow "Open a new tmux window."
        [target, optional "affinity"
          "When set, the new tab joins the native window holding this tmux window"
          (.nullable (id .window))]])

/-- The schema of a reported connection. -/
def entry : Schema :=
  .described "One live connection as reported by the host." (.object
    [required "connection_id" "Connection identifier" (id .connection),
      required "owning_session_id" "Session running `tmux -CC`" (id .session)])

/-- The schema of a payload. -/
def payload : Schema :=
  .described "Request-specific part of a successful response." (.oneOf
    [tagged .listConnections "Reply to [`TmuxRequest::ListConnections`]."
        [optional "connections" "Connections in the order the host reported them"
          (.defaulted (.array []) (.array (.named "ConnectionEntry" entry)))],
      tagged .sendCommand "Reply to [`TmuxRequest::SendCommand`]."
        [optional "output" "Command output; absent when tmux reported an error" .stringOrNull],
      tagged .setWindowVisible "Reply to [`TmuxRequest::SetWindowVisible`]." [],
      tagged .createWindow "Reply to [`TmuxRequest::CreateWindow`]."
        [required "tab_id" "Tab that now represents the new tmux window" (id .tab)]])

/-- The schema of a response. -/
def response : Schema :=
  .described "A tmux response from the host application." (.object
    [required "status" "Outcome code" (.named "TmuxStatus" status),
      optional "payload" "Request-specific payload; only meaningful when `status` is OK"
        (.nullable (.named "TmuxResponsePayload" payload))])

end Schema

/-- The types with a published schema. -/
inductive MessageType where
  | id (kind : IdKind)
  | status
  | request
  | entry
  | payload
  | response
  deriving DecidableEq, Repr

namespace MessageType

/-- The name under which a type is published. -/
def name : MessageType → String
  | .id kind => Schema.idName kind
  | .status => "TmuxStatus"
  | .request => "TmuxRequest"
  | .entry => "ConnectionEntry"
  | .payload => "TmuxResponsePayload"
  | .response => "TmuxResponse"

/-- The schema of a type. -/
def schema : MessageType → Schema
  | .id kind => Schema.ofIdKind kind
  | .status => Schema.status
  | .request => Schema.request
  | .entry => Schema.entry
  | .payload => Schema.payload
  | .response => Schema.response

/-- The published schema of a type. -/
def document (t : MessageType) : Json := t.schema.document t.name

end MessageType

end MuxBridge
