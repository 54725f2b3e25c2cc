/-
# The log

What the gateway reports while it works. A record has an event and the span of work it belongs to;
level and wording follow from the event.
-/
import MuxBridge.Duration
import MuxBridge.Failure
import MuxBridge.Message.Basic

namespace MuxBridge

/-- The work during which something is reported. -/
inductive Span where
  | none
  | listing
  | command (connection : ConnectionId)
  | visibility (connection : ConnectionId)
  | window (connection : ConnectionId)
  deriving DecidableEq, Repr

/-- The name of work on a connection. -/
def Span.onConnection (name : String) (c : ConnectionId) : String :=
  name ++ "\x7bconnection_id=" ++ c.text ++ "\x7d"

/-- The text of a span. -/
def Span.text : Span → String
  | .none => ""
  | .listing => "list_connections"
  | .command c => Span.onConnection "send_command" c
  | .visibility c => Span.onConnection "set_window_visible" c
  | .window c => Span.onConnection "create_window_with_affinity" c

/-- How serious an event is. -/
inductive Level where
  | error
  | warn
  | info
  | debug
  deriving DecidableEq, Repr

/-- The name of a level. -/
def Level.name : Level → String
  | .error => "ERROR"
  | .warn => "WARN"
  | .info => "INFO"
  | .debug => "DEBUG"

/-- What is reported. -/
inductive LogEvent where
  | factoryRegistered
  | noFactory
  /-- A run of the factory starts. -/
  | resolving
  | factoryFailed (f : Failure)
  | installed
  | resolutionTimedOut (deadline : Duration)
  | requestTimedOut (kind : Kind) (deadline : Duration)
  | listing
  | listingFailed (f : Failure)
  | found (count : Nat)
  | sending (kind : Kind)
  | requestFailed (kind : Kind) (connection : ConnectionId) (f : Failure)
  | windowCreated (tab : TabId)
  | tabNotVisible (tab : TabId)
  | noTabReported
  deriving DecidableEq, Repr

namespace LogEvent

/-- The level of an event. -/
def level : LogEvent → Level
  | .noFactory => .error
  | .factoryFailed _ | .resolutionTimedOut _ | .requestTimedOut .. | .listingFailed _
  | .requestFailed .. => .warn
  | .installed | .found _ => .info
  | .factoryRegistered | .resolving | .listing | .sending _ | .windowCreated _ | .tabNotVisible _
  | .noTabReported => .debug

/-- The words of an event. -/
def text : LogEvent → String
  | .factoryRegistered => "tmux delegate factory registered"
  | .noFactory => "tmux delegate requested but no delegate factory is registered"
  | .resolving => "Resolving tmux delegate"
  | .factoryFailed f => "tmux delegate factory failed: " ++ f.message
  | .installed => "tmux delegate installed"
  | .resolutionTimedOut d => "tmux delegate resolution timed out after " ++ d.text
  | .requestTimedOut k d => "tmux " ++ k.name ++ " request timed out after " ++ d.text
  | .listing => "Listing tmux connections"
  | .listingFailed f => "Listing tmux connections failed: " ++ f.message
  | .found n => "Found " ++ toString n ++ " tmux connection(s)"
  | .sending k => "Sending tmux " ++ k.name ++ " request"
  | .requestFailed k c f =>
    "tmux " ++ k.name ++ " request on " ++ c.text ++ " failed: " ++ f.message
  | .windowCreated t => "tmux window created in tab " ++ t.text
  | .tabNotVisible t => "Tab " ++ t.text ++ " not yet visible to the host"
  | .noTabReported => "tmux window created but no tab id reported"

end LogEvent

/-- An event with the span it was reported in. -/
structure LogRecord where
  span : Span
  event : LogEvent
  deriving DecidableEq, Repr

end MuxBridge
