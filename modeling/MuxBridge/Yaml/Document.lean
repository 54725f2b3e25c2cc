/-
# Documents of a YAML stream

The first document of a stream as the row of its nodes: a collection is a start, its items and an
end. An alias is kept as a number that leads to the place of its anchor. Numbers are given out as
the count of different anchor names met so far, so an anchor that repeats a name shares its number
with the next new one, and the last anchor under a number is the one it leads to.
-/
import MuxBridge.Yaml.Event
import MuxBridge.Yaml.Layout

namespace MuxBridge.Yaml

/-- A node of a document, or an end of one. -/
inductive Node where
  /-- Stands for the node that a number leads to. -/
  | alias (number : Nat)
  | scalar (tag : Option String) (text : String) (style : Style)
  | sequenceStart
  | sequenceEnd
  | mappingStart
  | mappingEnd
  /-- The only node of a stream without documents. -/
  | nothing
  deriving DecidableEq, Repr

/-- The first document of a stream. -/
structure Document where
  nodes : List Node
  /-- The place of the anchored node under every number, the last one given counting. -/
  places : List (Nat × Nat)
  /-- Whether the document is well formed and nothing comes after it. -/
  whole : Bool
  deriving Repr

namespace Document

/-- The nodes from an anchored one on. -/
def nodesAt (d : Document) (number : Nat) : List Node :=
  match d.places.lookup number with
  | some place => d.nodes.drop place
  | none => []

/-- A document that is being collected, with the number of every anchor name. -/
structure Draft where
  nodes : List Node
  names : List (String × Nat)
  places : List (Nat × Nat)

namespace Draft

/-- Appends a node. -/
def push (d : Draft) (n : Node) : Draft := { d with nodes := d.nodes ++ [n] }

/-- Notes that the next node is anchored under a name. -/
def anchor (d : Draft) : Option String → Draft
  | none => d
  | some name =>
    let number := d.names.length
    { d with
      names := (name, number) :: d.names.filter (·.1 != name)
      places := (number, d.nodes.length) :: d.places }

/-- The document as far as it was collected. -/
def close (d : Draft) (whole : Bool) : Document := ⟨d.nodes, d.places, whole⟩

/-- Collects events up to the end of the document. -/
def collect : List Event → Draft → Document
  | [], d => d.close false
  | .documentStart :: es, d => collect es d
  | .documentEnd :: es, d => d.close (es = [.streamEnd])
  | .alias name :: es, d =>
    match d.names.lookup name with
    | some number => collect es (d.push (.alias number))
    | none => d.close false
  | .scalar m text style :: es, d =>
    collect es ((d.anchor m.anchor).push (.scalar m.tag text style))
  | .sequenceStart m :: es, d => collect es ((d.anchor m.anchor).push .sequenceStart)
  | .sequenceEnd :: es, d => collect es (d.push .sequenceEnd)
  | .mappingStart m :: es, d => collect es ((d.anchor m.anchor).push .mappingStart)
  | .mappingEnd :: es, d => collect es (d.push .mappingEnd)
  | .streamEnd :: _, d => (d.push .nothing).close true

end Draft

/-- The first document of a row of events. -/
def ofEvents (es : List Event) : Document := Draft.collect es ⟨[], [], []⟩

/-- The first document of a text. -/
def ofText (text : String) : Document := ofEvents (eventsOf (tokensOf text.toList))

end Document

/-- Skips one node with all that belongs to it, `depth` collections being open; there is nothing
left if the row ends inside of it. -/
def skipNodes : Nat → List Node → Option (List Node)
  | _, [] => none
  | depth, n :: ns =>
    match n with
    | .sequenceStart | .mappingStart => skipNodes (depth + 1) ns
    | .sequenceEnd | .mappingEnd => if depth ≤ 1 then some ns else skipNodes (depth - 1) ns
    | _ => if depth = 0 then some ns else skipNodes depth ns

/-- Skips one node. -/
def skipNode (ns : List Node) : Option (List Node) := skipNodes 0 ns

end MuxBridge.Yaml
