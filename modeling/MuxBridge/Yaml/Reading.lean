/-
# Reading sections of a YAML document

Readers of numbers and sections, which start at the front of a row of nodes and give the value with
the nodes behind it. A `Section` is a mapping whose known keys fill the fields of a
value; unknown keys are skipped, and an empty value leaves every field at its default. A reader
reports the first thing that is wrong in the order of the document, and reaches the end of a faulty
document only if nothing in front of the fault is wrong.
-/
import MuxBridge.Yaml.Document
import MuxBridge.Yaml.Failure
import MuxBridge.Yaml.Resolved

namespace MuxBridge.Yaml

/-- The outcome of reading from a document. -/
abbrev Reading (α : Type) := Except YamlFailure α

/-- Why a node is not what was expected. -/
def unexpected {α : Type} (path : YamlPath) (expected : String) : Option Node → Reading α
  | some (.scalar tag text style) =>
    .error (.mismatch path (scalarMismatch tag text style expected))
  | some .sequenceStart => .error (.mismatch path (.invalidType .sequence expected))
  | some .mappingStart => .error (.mismatch path (.invalidType .map expected))
  | _ => .error .unreadable

/-- Whether a scalar is read as an integer by its text alone. -/
def isIntegerLike (tag : Option String) (style : Style) : Bool :=
  style = .plain || (style = .literal && tag = some integerTag)

/-- Reads a natural number of 64 bits from a node that is no alias. -/
def word64Of (path : YamlPath) (n : Option Node) : Reading Nat :=
  match n with
  | some (.scalar tag text style) =>
    match if isIntegerLike tag style then unsigned? 64 text.toList else none with
    | some k => .ok k
    | none => unexpected path "u64" n
  | n => unexpected path "u64" n

/-- Reads a natural number of 64 bits. -/
def readWord64 (d : Document) (path : YamlPath) : List Node → Reading (Nat × List Node)
  | .alias number :: ns => do return (← word64Of path (d.nodesAt number).head?, ns)
  | n :: ns => do return (← word64Of path (some n), ns)
  | [] => .error .unreadable

/-- A field of a section with the values collected so far in `σ`. -/
structure Field (σ : Type) where
  name : String
  /-- Whether the field has a value. -/
  isSet : σ → Bool
  /-- Reads the value of the field. -/
  read : Document → YamlPath → List Node → σ → Reading (σ × List Node)

/-- How a section is read. -/
structure Section (σ : Type) where
  /-- What a message calls the section. -/
  label : String
  fields : List (Field σ)
  /-- No field has a value. -/
  start : σ

namespace Section

variable {σ : Type}

/-- Reads a key: its name, and the path to its value. -/
def readKey (d : Document) (path : YamlPath) : List Node → Reading ((String × YamlPath) × List Node)
  | .scalar _ text _ :: ns => .ok ((text, .key path text), ns)
  | .alias number :: ns =>
    match (d.nodesAt number).head? with
    | some (.scalar _ text _) => .ok ((text, .unnamed path), ns)
    | n => unexpected path "field identifier" n
  | n :: _ => unexpected path "field identifier" (some n)
  | [] => .error .unreadable

/-- Reads the value of a key into its field, or skips the value of an unknown key. -/
def readValue (s : Section σ) (d : Document) (path valuePath : YamlPath) (name : String)
    (ns : List Node) (known : σ) : Reading (σ × List Node) :=
  match s.fields.find? (·.name == name) with
  | some f =>
    if f.isSet known then .error (.mismatch path (.duplicateField name))
    else f.read d valuePath ns known
  | none =>
    match skipNode ns with
    | some ns => .ok (known, ns)
    | none => .error .unreadable

/-- Reads the pairs of a mapping up to its end. -/
def readPairs (s : Section σ) (d : Document) (path : YamlPath) :
    Nat → List Node → σ → Reading (σ × List Node)
  | 0, _, _ => .error .unreadable
  | fuel + 1, ns, known =>
    match ns with
    | .mappingEnd :: ns => .ok (known, ns)
    | ns => do
      let ((name, valuePath), ns) ← readKey d path ns
      let (known, ns) ← s.readValue d path valuePath name ns known
      s.readPairs d path fuel ns known

/-- Reads the section from a row of nodes that starts with no alias. -/
def readDirect (s : Section σ) (d : Document) (path : YamlPath) :
    List Node → Reading (σ × List Node)
  | .mappingStart :: ns => s.readPairs d path (ns.length + 1) ns s.start
  | .nothing :: ns => .ok (s.start, ns)
  | .scalar tag text style :: ns =>
    if text = "" && style = .plain then .ok (s.start, ns)
    else unexpected path s.label (some (.scalar tag text style))
  | n :: _ => unexpected path s.label (some n)
  | [] => .error .unreadable

/-- Reads the section. -/
def read (s : Section σ) (d : Document) (path : YamlPath) : List Node → Reading (σ × List Node)
  | .alias number :: ns => do return ((← s.readDirect d path (d.nodesAt number)).1, ns)
  | ns => s.readDirect d path ns

/-- Reads the section as the only document of a text. -/
def readText (s : Section σ) (text : String) : Reading σ := do
  let d := Document.ofText text
  let (known, _) ← s.read d .root d.nodes
  if d.whole then return known else .error .unreadable

end Section

end MuxBridge.Yaml
