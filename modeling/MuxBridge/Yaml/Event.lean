/-
# Events of a YAML stream

From tokens to events: the starts and ends of documents, sequences and mappings, and the scalars and
aliases between them. What may come next is kept on a stack of `Goal`s. A value that the text leaves
out is an empty plain scalar.

`eventsOf` yields the events of a list of tokens. It ends with `streamEnd` exactly if the tokens are
a whole stream of documents; otherwise it has the events in front of the first fault.
-/
import MuxBridge.Yaml.Token

namespace MuxBridge.Yaml

/-- What a node carries besides its content. -/
structure Marks where
  anchor : Option String
  tag : Option String
  deriving DecidableEq, Repr

/-- No anchor and no tag. -/
def Marks.none : Marks := ⟨Option.none, Option.none⟩

/-- An event. -/
inductive Event where
  | documentStart
  | documentEnd
  | alias (name : String)
  | scalar (marks : Marks) (text : String) (style : Style)
  | sequenceStart (marks : Marks)
  | sequenceEnd
  | mappingStart (marks : Marks)
  | mappingEnd
  | streamEnd
  deriving DecidableEq, Repr

/-- The event of a value that is left out. -/
def Event.leftOut : Event := .scalar .none "" .plain

/-- What the next tokens have to be. -/
inductive Goal where
  /-- Another document or the end of the stream. Only the first document needs no start mark. -/
  | document (first : Bool)
  /-- The content behind the start mark of a document. -/
  | content
  | documentEnd
  /-- A node. Only outside brackets it may be a block, and only as the value or key of a block
  mapping it may be a sequence without indentation. -/
  | node (block unindented : Bool)
  | blockEntry
  | unindentedEntry
  | blockKey
  | blockValue
  | flowEntry (first : Bool)
  /-- The key of a single pair that stands for a mapping in a sequence. -/
  | pairKey
  | pairValue
  | pairEnd
  | flowKey (first : Bool)
  | flowValue
  /-- The value of a key without a mark, which is left out. -/
  | noValue
  deriving DecidableEq, Repr

/-- Handles and what they abbreviate, the first entry of a handle counting. -/
abbrev Abbreviations := List (String × String)

/-- The handles that every document knows. -/
def defaultAbbreviations : Abbreviations := [("!", "!"), ("!!", "tag:yaml.org,2002:")]

/-- What is left to do, and the events so far. -/
structure Progress where
  goals : List Goal
  tokens : List Token
  abbreviations : Abbreviations
  events : List Event
  deriving Repr

namespace Progress

/-- The start of a stream. -/
def start (ts : List Token) : Progress := ⟨[.document true], ts, [], []⟩

/-- Goes on with other goals and tokens after some events. -/
def goOn (p : Progress) (goals : List Goal) (tokens : List Token) (events : List Event) :
    Progress :=
  { p with goals := goals, tokens := tokens, events := p.events ++ events }

/-! ## Documents -/

/-- Reads directives: at most one version, which is 1.1 or 1.2, and abbreviations of different
handles. -/
def directives : Bool → Abbreviations → List Token → Option (Abbreviations × List Token)
  | versioned, as, .version major minor :: ts =>
    if versioned || major ≠ 1 || (minor ≠ 1 && minor ≠ 2) then none else directives true as ts
  | versioned, as, .abbreviation handle expansion :: ts =>
    if (as.lookup handle).isSome then none
    else directives versioned (as ++ [(handle, expansion)]) ts
  | _, as, ts => some (as ++ defaultAbbreviations, ts)

/-- Drops the end marks in front of a document. -/
def skipEndMarks : List Token → List Token
  | .documentEnd :: ts => skipEndMarks ts
  | ts => ts

/-- Whether a token belongs to the frame of a document and not to its content. -/
def isFrame : Token → Bool
  | .version .. | .abbreviation .. | .documentStart | .streamEnd => true
  | _ => false

/-- Starts a document or ends the stream. -/
def document (p : Progress) (gs : List Goal) (first : Bool) : Option Progress :=
  match if first then p.tokens else skipEndMarks p.tokens with
  | [] => none
  | .streamEnd :: ts => some (p.goOn [] ts [.streamEnd])
  | t :: ts =>
    if first && !isFrame t then
      some ({ p with abbreviations := defaultAbbreviations }.goOn
        (.node true false :: .documentEnd :: gs) (t :: ts) [.documentStart])
    else
      match directives false [] (t :: ts) with
      | some (as, .documentStart :: ts) =>
        some ({ p with abbreviations := as }.goOn (.content :: .documentEnd :: gs) ts
          [.documentStart])
      | _ => none

/-- Reads the content of a document, which may be left out. -/
def content (p : Progress) (gs : List Goal) : Option Progress :=
  match p.tokens with
  | [] => none
  | t :: _ =>
    if isFrame t || t = .documentEnd then some (p.goOn gs p.tokens [.leftOut])
    else some (p.goOn (.node true false :: gs) p.tokens [])

/-- Ends a document, with or without a mark. -/
def endDocument (p : Progress) (gs : List Goal) : Option Progress :=
  match p.tokens with
  | [] => none
  | .documentEnd :: ts => some (p.goOn (.document false :: gs) ts [.documentEnd])
  | ts => some (p.goOn (.document false :: gs) ts [.documentEnd])

/-! ## Nodes -/

/-- Reads the anchor and the tag in front of a node, in either order. -/
def anchorAndTag : List Token → Option String × Option (String × String) × List Token
  | .anchor a :: .tag h s :: ts => (some a, some (h, s), ts)
  | .tag h s :: .anchor a :: ts => (some a, some (h, s), ts)
  | .anchor a :: ts => (some a, none, ts)
  | .tag h s :: ts => (none, some (h, s), ts)
  | ts => (none, none, ts)

/-- The full tag of a handle and a suffix. -/
def fullTag? (as : Abbreviations) (handle suffix : String) : Option String :=
  if handle = "" then some suffix else (as.lookup handle).map (· ++ suffix)

/-- The full tag of a node, if it has one. -/
def resolveTag (as : Abbreviations) : Option (String × String) → Option (Option String)
  | none => some none
  | some (h, s) => (fullTag? as h s).map some

/-- The tag that says no more than that a node is no plain text is dropped from a scalar. -/
def scalarMarks (m : Marks) : Marks := if m.tag = some "!" then { m with tag := none } else m

/-- Reads the content of a node with an anchor or tag in front of it, or without. -/
def nodeContent (p : Progress) (gs : List Goal) (block unindented : Bool) (m : Marks) :
    List Token → Option Progress
  | [] => none
  | .scalar text style :: ts => some (p.goOn gs ts [.scalar (scalarMarks m) text style])
  | .flowSequenceStart :: ts => some (p.goOn (.flowEntry true :: gs) ts [.sequenceStart m])
  | .flowMappingStart :: ts => some (p.goOn (.flowKey true :: gs) ts [.mappingStart m])
  | t :: ts =>
    if unindented && t = .blockEntry then
      some (p.goOn (.unindentedEntry :: gs) (t :: ts) [.sequenceStart m])
    else if block && t = .blockSequenceStart then
      some (p.goOn (.blockEntry :: gs) ts [.sequenceStart m])
    else if block && t = .blockMappingStart then
      some (p.goOn (.blockKey :: gs) ts [.mappingStart m])
    else if m.anchor.isSome || m.tag.isSome then
      some (p.goOn gs (t :: ts) [.scalar m "" .plain])
    else none

/-- Reads a node. -/
def node (p : Progress) (gs : List Goal) (block unindented : Bool) : Option Progress :=
  match p.tokens with
  | .alias name :: ts => some (p.goOn gs ts [.alias name])
  | ts =>
    let (anchor, tag, rest) := anchorAndTag ts
    if rest.isEmpty then none
    else
      match resolveTag p.abbreviations tag with
      | none => none
      | some tag => p.nodeContent gs block unindented ⟨anchor, tag⟩ rest

/-- Reads a node, or leaves it out in front of a token that ends its place. -/
def nodeUnless (p : Progress) (gs : List Goal) (ends : List Token) (n : Goal) (ts : List Token) :
    Option Progress :=
  match ts with
  | [] => none
  | t :: _ =>
    if t ∈ ends then some (p.goOn gs ts [.leftOut]) else some (p.goOn (n :: gs) ts [])

/-! ## Blocks -/

/-- Reads the next entry of a block sequence. -/
def blockEntry (p : Progress) (gs : List Goal) : Option Progress :=
  match p.tokens with
  | .blockEntry :: ts =>
    p.nodeUnless (.blockEntry :: gs) [.blockEntry, .blockEnd] (.node true false) ts
  | .blockEnd :: ts => some (p.goOn gs ts [.sequenceEnd])
  | _ => none

/-- Reads the next entry of a sequence without indentation, which anything else ends. -/
def unindentedEntry (p : Progress) (gs : List Goal) : Option Progress :=
  match p.tokens with
  | [] => none
  | .blockEntry :: ts =>
    p.nodeUnless (.unindentedEntry :: gs) [.blockEntry, .key, .value, .blockEnd]
      (.node true false) ts
  | ts => some (p.goOn gs ts [.sequenceEnd])

/-- Reads the next key of a block mapping. -/
def blockKey (p : Progress) (gs : List Goal) : Option Progress :=
  match p.tokens with
  | .key :: ts =>
    p.nodeUnless (.blockValue :: gs) [.key, .value, .blockEnd] (.node true true) ts
  | .blockEnd :: ts => some (p.goOn gs ts [.mappingEnd])
  | _ => none

/-- Reads the value of a key in a block mapping. -/
def blockValue (p : Progress) (gs : List Goal) : Option Progress :=
  match p.tokens with
  | [] => none
  | .value :: ts =>
    p.nodeUnless (.blockKey :: gs) [.key, .value, .blockEnd] (.node true true) ts
  | ts => some (p.goOn (.blockKey :: gs) ts [.leftOut])

/-! ## Brackets -/

/-- The tokens behind the comma between two items, if it is there. The first item has none. -/
def behindComma (first : Bool) (ts : List Token) : Option (List Token) :=
  if first then some ts
  else
    match ts with
    | .flowEntry :: ts => some ts
    | _ => none

/-- Reads the next item of a sequence in brackets. A key mark makes it a mapping of one pair. -/
def flowEntry (p : Progress) (gs : List Goal) (first : Bool) : Option Progress :=
  match p.tokens with
  | .flowSequenceEnd :: ts => some (p.goOn gs ts [.sequenceEnd])
  | ts =>
    match behindComma first ts with
    | none | some [] => none
    | some (.flowSequenceEnd :: ts) => some (p.goOn gs ts [.sequenceEnd])
    | some (.key :: ts) =>
      some (p.goOn (.pairKey :: .flowEntry false :: gs) ts [.mappingStart .none])
    | some ts => some (p.goOn (.node false false :: .flowEntry false :: gs) ts [])

/-- Reads the key of a pair. Where it is left out the token in its place is skipped. -/
def pairKey (p : Progress) (gs : List Goal) : Option Progress :=
  match p.tokens with
  | [] => none
  | t :: ts =>
    if t ∈ [.value, .flowEntry, .flowSequenceEnd] then
      some (p.goOn (.pairValue :: gs) ts [.leftOut])
    else some (p.goOn (.node false false :: .pairValue :: gs) (t :: ts) [])

/-- Reads the value of a pair. -/
def pairValue (p : Progress) (gs : List Goal) : Option Progress :=
  match p.tokens with
  | [] => none
  | .value :: ts =>
    p.nodeUnless (.pairEnd :: gs) [.flowEntry, .flowSequenceEnd] (.node false false) ts
  | ts => some (p.goOn (.pairEnd :: gs) ts [.leftOut])

/-- Ends a pair. -/
def pairEnd (p : Progress) (gs : List Goal) : Option Progress :=
  if p.tokens.isEmpty then none else some (p.goOn gs p.tokens [.mappingEnd])

/-- Reads the next key of a mapping in braces. -/
def flowKey (p : Progress) (gs : List Goal) (first : Bool) : Option Progress :=
  match p.tokens with
  | .flowMappingEnd :: ts => some (p.goOn gs ts [.mappingEnd])
  | ts =>
    match behindComma first ts with
    | none | some [] => none
    | some (.flowMappingEnd :: ts) => some (p.goOn gs ts [.mappingEnd])
    | some (.key :: ts) =>
      p.nodeUnless (.flowValue :: gs) [.value, .flowEntry, .flowMappingEnd] (.node false false) ts
    | some ts => some (p.goOn (.node false false :: .noValue :: gs) ts [])

/-- Reads the value of a key in a mapping in braces. -/
def flowValue (p : Progress) (gs : List Goal) : Option Progress :=
  match p.tokens with
  | [] => none
  | .value :: ts =>
    p.nodeUnless (.flowKey false :: gs) [.flowEntry, .flowMappingEnd] (.node false false) ts
  | ts => some (p.goOn (.flowKey false :: gs) ts [.leftOut])

/-- Leaves out the value of a key without a mark. -/
def noValue (p : Progress) (gs : List Goal) : Option Progress :=
  if p.tokens.isEmpty then none else some (p.goOn (.flowKey false :: gs) p.tokens [.leftOut])

/-! ## Streams -/

/-- Reaches the first goal or replaces it by smaller ones. -/
def step (p : Progress) : Option Progress :=
  match p.goals with
  | [] => none
  | .document first :: gs => p.document gs first
  | .content :: gs => p.content gs
  | .documentEnd :: gs => p.endDocument gs
  | .node block unindented :: gs => p.node gs block unindented
  | .blockEntry :: gs => p.blockEntry gs
  | .unindentedEntry :: gs => p.unindentedEntry gs
  | .blockKey :: gs => p.blockKey gs
  | .blockValue :: gs => p.blockValue gs
  | .flowEntry first :: gs => p.flowEntry gs first
  | .pairKey :: gs => p.pairKey gs
  | .pairValue :: gs => p.pairValue gs
  | .pairEnd :: gs => p.pairEnd gs
  | .flowKey first :: gs => p.flowKey gs first
  | .flowValue :: gs => p.flowValue gs
  | .noValue :: gs => p.noValue gs

/-- Steps until no goal is left or the tokens do not fit. -/
def run : Nat → Progress → List Event
  | 0, p => p.events
  | fuel + 1, p =>
    match p.step with
    | none => p.events
    | some p => run fuel p

end Progress

/-- The events of a list of tokens. A token takes part in at most eight steps. -/
def eventsOf (ts : List Token) : List Event :=
  Progress.run (8 * ts.length + 8) (Progress.start ts)

end MuxBridge.Yaml
