/-
# Messages in JSON

How messages are written as JSON and read back. Requests and payloads are unions tagged by the name
of their kind; an optional member that is absent is left out. Reading takes the members of an object
in any order, skips unknown ones, and accepts an array that lists the members in their order.
-/
import MuxBridge.Message.Basic

namespace MuxBridge

/-- The member that names the kind of a request or payload. -/
def kindTag : String := "type"

/-- An optional member, left out when absent. -/
def optionalMember {α : Type} (name : String) (toJson : α → Json) : Option α → List (String × Json)
  | none => []
  | some a => [(name, toJson a)]

/-- A message of a kind with its members. -/
def tagged (k : Kind) (members : List (String × Json)) : Json :=
  .object ((kindTag, .string k.name) :: members)

/-! ## Writing -/

/-- A request in JSON. -/
def Request.toJson : Request → Json
  | .listConnections => tagged .listConnections []
  | .sendCommand c text =>
    tagged .sendCommand [("connection_id", c.toJson), ("command", .string text)]
  | .setWindowVisible c w v =>
    tagged .setWindowVisible
      [("connection_id", c.toJson), ("window_id", w.toJson), ("visible", .bool v)]
  | .createWindow c a =>
    tagged .createWindow (("connection_id", c.toJson) :: optionalMember "affinity" Id.toJson a)

/-- A reported connection in JSON. -/
def Entry.toJson (e : Entry) : Json :=
  .object [("connection_id", e.connection.toJson), ("owning_session_id", e.owner.toJson)]

/-- A payload in JSON. -/
def Payload.toJson : Payload → Json
  | .listConnections es => tagged .listConnections [("connections", .array (es.map Entry.toJson))]
  | .sendCommand o => tagged .sendCommand (optionalMember "output" Json.string o)
  | .setWindowVisible => tagged .setWindowVisible []
  | .createWindow t => tagged .createWindow [("tab_id", t.toJson)]

/-- A response in JSON. -/
def Response.toJson (r : Response) : Json :=
  .object (("status", r.status.toJson) :: optionalMember "payload" Payload.toJson r.payload)

/-! ## Reading records -/

/-- A reported connection as a record. -/
def Entry.record : Record (Option ConnectionId × Option SessionId) Entry where
  label := "struct ConnectionEntry"
  fields := ["connection_id", "owning_session_id"]
  start := (none, none)
  put _ name d s :=
    match name with
    | "connection_id" => do return (← setOnce name s.1 (Id.read d), s.2)
    | _ => do return (s.1, ← setOnce name s.2 (Id.read d))
  finish s := do return ⟨← require "connection_id" s.1, ← require "owning_session_id" s.2⟩

/-- Reads a reported connection. -/
def Entry.read (src : Source) (d : Draft) : Read Entry := Entry.record.read src d

/-- Reads the items of a list. -/
def readItems {α : Type} (read : Draft → Read α) : List Draft → Read (List α)
  | [] => .ok []
  | d :: ds => do
    let a ← read d
    return a :: (← readItems read ds)

/-- Reads a list. -/
def readList {α : Type} (read : Draft → Read α) : Draft → Read (List α)
  | .array items ending => do
    let as ← readItems read items
    Read.close ending
    return as
  | d => d.unexpected "a sequence"

/-! ## Reading requests -/

/-- The members of a command. -/
def Request.commandRecord : Record (Option ConnectionId × Option String) Request where
  label := "struct variant TmuxRequest::SendCommand"
  fields := ["connection_id", "command"]
  start := (none, none)
  put _ name d s :=
    match name with
    | "connection_id" => do return (← setOnce name s.1 (Id.read d), s.2)
    | _ => do return (s.1, ← setOnce name s.2 d.readText)
  finish s := do return .sendCommand (← require "connection_id" s.1) (← require "command" s.2)

/-- The members of a change of visibility. -/
def Request.visibilityRecord :
    Record (Option ConnectionId × Option WindowId × Option Bool) Request where
  label := "struct variant TmuxRequest::SetWindowVisible"
  fields := ["connection_id", "window_id", "visible"]
  start := (none, none, none)
  put _ name d s :=
    match name with
    | "connection_id" => do return (← setOnce name s.1 (Id.read d), s.2)
    | "window_id" => do return (s.1, ← setOnce name s.2.1 (Id.read d), s.2.2)
    | _ => do return (s.1, s.2.1, ← setOnce name s.2.2 d.readFlag)
  finish s := do
    return .setWindowVisible (← require "connection_id" s.1) (← require "window_id" s.2.1)
      (← require "visible" s.2.2)

/-- The members of a request for a new window. -/
def Request.windowRecord : Record (Option ConnectionId × Option (Option WindowId)) Request where
  label := "struct variant TmuxRequest::CreateWindow"
  fields := ["connection_id", "affinity"]
  start := (none, none)
  put _ name d s :=
    match name with
    | "connection_id" => do return (← setOnce name s.1 (Id.read d), s.2)
    | _ => do return (s.1, ← setOnce name s.2 (d.readOptional Id.read))
  finish s := do return .createWindow (← require "connection_id" s.1) (s.2.getD none)

/-- Requests as a union. -/
def Request.union : Union Request where
  label := "TmuxRequest"
  tag := kindTag
  variants := Kind.names
  read name :=
    match Kind.ofName? name with
    | some .sendCommand => Request.commandRecord.read .buffer
    | some .setWindowVisible => Request.visibilityRecord.read .buffer
    | some .createWindow => Request.windowRecord.read .buffer
    | _ => (Record.unit "unit variant TmuxRequest::ListConnections" .listConnections).read .buffer

/-- Reads a request. -/
def Request.read (src : Source) (d : Draft) : Read Request := Request.union.ofDraft src d

/-! ## Reading payloads and responses -/

/-- The members of a list of connections, which is empty by default. -/
def Payload.listRecord : Record (Option (List Entry)) Payload where
  label := "struct variant TmuxResponsePayload::ListConnections"
  fields := ["connections"]
  start := none
  put src name d s := setOnce name s (readList (Entry.read src) d)
  finish s := .ok (.listConnections (s.getD []))

/-- The members of a command's output, which is absent by default. -/
def Payload.outputRecord : Record (Option (Option String)) Payload where
  label := "struct variant TmuxResponsePayload::SendCommand"
  fields := ["output"]
  start := none
  put _ name d s := setOnce name s (d.readOptional Draft.readText)
  finish s := .ok (.sendCommand (s.getD none))

/-- The members of a created window. -/
def Payload.tabRecord : Record (Option TabId) Payload where
  label := "struct variant TmuxResponsePayload::CreateWindow"
  fields := ["tab_id"]
  start := none
  put _ name d s := setOnce name s (Id.read d)
  finish s := do return .createWindow (← require "tab_id" s)

/-- Payloads as a union. -/
def Payload.union : Union Payload where
  label := "TmuxResponsePayload"
  tag := kindTag
  variants := Kind.names
  read name :=
    match Kind.ofName? name with
    | some .listConnections => Payload.listRecord.read .buffer
    | some .sendCommand => Payload.outputRecord.read .buffer
    | some .createWindow => Payload.tabRecord.read .buffer
    | _ =>
      let name := "unit variant TmuxResponsePayload::SetWindowVisible"
      (Record.unit name .setWindowVisible).read .buffer

/-- Reads a payload. -/
def Payload.read (src : Source) (d : Draft) : Read Payload := Payload.union.ofDraft src d

/-- A response as a record; its payload is absent by default. -/
def Response.record : Record (Option Status × Option (Option Payload)) Response where
  label := "struct TmuxResponse"
  fields := ["status", "payload"]
  start := (none, none)
  put src name d s :=
    match name with
    | "status" => do return (← setOnce name s.1 (Status.read src d), s.2)
    | _ => do return (s.1, ← setOnce name s.2 (d.readOptional (Payload.read src)))
  finish s := do return ⟨← require "status" s.1, s.2.getD none⟩

/-- Reads a response. -/
def Response.read (src : Source) (d : Draft) : Read Response := Response.record.read src d

end MuxBridge
