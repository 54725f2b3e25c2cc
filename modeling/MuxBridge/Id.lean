/-
# Identifiers

The host hands out identifiers of four kinds as opaque texts. An `Id` knows its kind, so that a
window is never asked for by the identifier of a tab; identifiers are ordered by their texts.
-/
import MuxBridge.Json.Reading

namespace MuxBridge

/-- What an identifier stands for. -/
inductive IdKind where
  /-- A live tmux integration connection. -/
  | connection
  /-- A terminal session of the host. -/
  | session
  /-- A tab of the host. -/
  | tab
  /-- A tmux window, as the tmux server names it. -/
  | window
  deriving DecidableEq, Repr

/-- An identifier of one kind. -/
structure Id (kind : IdKind) where
  text : String
  deriving DecidableEq, Repr, Inhabited

abbrev ConnectionId := Id .connection
abbrev SessionId := Id .session
abbrev TabId := Id .tab
abbrev WindowId := Id .window

namespace Id

variable {kind : IdKind}

/-- The order of identifiers is the order of their texts, code point by code point. -/
instance : Ord (Id kind) := ⟨fun a b => compare a.text b.text⟩

/-- The number of bytes of an identifier in UTF-8. -/
def byteSize (a : Id kind) : Nat := a.text.utf8ByteSize

/-- Inserts an identifier into a sorted list that has no repetitions, unless it is there. -/
def insertSorted (a : Id kind) : List (Id kind) → List (Id kind)
  | [] => [a]
  | b :: bs =>
    match compare a b with
    | .lt => a :: b :: bs
    | .eq => b :: bs
    | .gt => b :: insertSorted a bs

/-- The distinct identifiers of a list in their order. -/
def sortedDistinct (ids : List (Id kind)) : List (Id kind) := ids.foldr insertSorted []

/-- An identifier is written as its text. -/
def toJson (a : Id kind) : Json := .string a.text

/-- Reads an identifier. -/
def read (d : Draft) : Read (Id kind) := d.readText.map Id.mk

end Id

end MuxBridge
