/-
# The layout of a YAML text

From characters to tokens. Two things make this more than cutting a text into pieces: indentation
opens and closes blocks, and whether a scalar is a key shows only when the colon behind it is met.
A `Layout` therefore keeps the columns of the open blocks and, for every level of brackets, the
`KeyPlace` of a token that may still turn out to be a key; the colon then inserts the key token
there.

`tokensOf` yields the tokens of a text. It ends with `streamEnd` exactly if the whole text is well
formed as far as tokens go; otherwise it has the tokens in front of the first fault, as far as no
later token could have changed them.
-/
import MuxBridge.Yaml.Name

namespace MuxBridge.Yaml

/-- The place of a token that may be a key. -/
structure KeyPlace where
  /-- Whether the layout allows nothing but a key there. -/
  required : Bool
  /-- The number of tokens before it. -/
  position : Nat
  index : Nat
  line : Nat
  column : Nat
  deriving DecidableEq, Repr

/-- What is known of a text up to a cursor. -/
structure Layout where
  cursor : Cursor
  tokens : List Token
  /-- The columns of the open blocks, the innermost first. -/
  blocks : List Nat
  /-- Whether a key may start at the cursor. -/
  keyAllowed : Bool
  /-- The possible key of the innermost level of brackets. -/
  key : Option KeyPlace
  /-- The possible keys of the levels around it. -/
  outerKeys : List (Option KeyPlace)
  deriving Repr

namespace Layout

/-- The start of a text. -/
def start (cs : List Char) : Layout := ⟨Cursor.start cs, [], [], true, none, []⟩

/-- Whether the cursor is inside brackets. -/
def inFlow (s : Layout) : Bool := !s.outerKeys.isEmpty

/-- The indentation of the innermost block, which is -1 outside all blocks. -/
def indent (s : Layout) : Int :=
  match s.blocks with
  | [] => -1
  | n :: _ => n

/-- Appends a token. -/
def push (s : Layout) (t : Token) : Layout := { s with tokens := s.tokens ++ [t] }

/-- Inserts a token behind the first `position` tokens. -/
def insert (s : Layout) (position : Nat) (t : Token) : Layout :=
  { s with tokens := s.tokens.take position ++ t :: s.tokens.drop position }

/-- Appends a token and moves to the text behind it. -/
def accept (s : Layout) (t : Token) (c : Cursor) : Layout := { s.push t with cursor := c }

/-! ## Possible keys -/

/-- Whether a key that starts at a place could no longer end at the cursor: a key stays on its line
and is at most 1024 bytes long. -/
def isStale (c : Cursor) (k : KeyPlace) : Bool := k.line < c.line || k.index + 1024 < c.index

/-- Drops a possible key that has become stale, unless it is required. -/
def freshen (c : Cursor) : Option KeyPlace → Option (Option KeyPlace)
  | none => some none
  | some k => if isStale c k then (if k.required then none else some none) else some (some k)

/-- Drops all stale keys. -/
def freshenKeys (s : Layout) : Option Layout := do
  let outer ← s.outerKeys.mapM (freshen s.cursor)
  let key ← freshen s.cursor s.key
  return { s with key := key, outerKeys := outer }

/-- Gives up the possible key of the innermost level. -/
def dropKey (s : Layout) : Option Layout :=
  match s.key with
  | some k => if k.required then none else some { s with key := none }
  | none => some s

/-- Notes that the next token may be a key. -/
def noteKey (s : Layout) : Option Layout :=
  if s.keyAllowed then do
    let s ← s.dropKey
    let c := s.cursor
    let required := !s.inFlow && s.indent == c.column
    let place : KeyPlace := ⟨required, s.tokens.length, c.index, c.line, c.column⟩
    return { s with key := some place }
  else some s

/-! ## Blocks -/

/-- Opens a block at a column that is deeper than all open blocks. The token that opens it goes to
the given position. -/
def openBlock (s : Layout) (column position : Nat) (t : Token) : Layout :=
  if !s.inFlow && s.indent < column then { s.insert position t with blocks := column :: s.blocks }
  else s

/-- Closes blocks, the innermost first, as long as they are deeper than `column`. -/
def closeFrom (column : Int) : List Nat → List Token → List Nat × List Token
  | [], ts => ([], ts)
  | n :: ns, ts => if column < n then closeFrom column ns (ts ++ [.blockEnd]) else (n :: ns, ts)

/-- Closes all blocks that are deeper than `column`; brackets keep all blocks open. -/
def closeBlocks (s : Layout) (column : Int) : Layout :=
  if s.inFlow then s
  else
    let (blocks, tokens) := closeFrom column s.blocks s.tokens
    { s with blocks := blocks, tokens := tokens }

/-! ## Tokens -/

/-- Moves over byte order marks, blanks, comments and line breaks to the next token. Outside
brackets a new line may start with a key; where a key may start, tabs are no blanks. -/
def skipGap : Nat → Layout → Layout
  | 0, s => s
  | fuel + 1, s =>
    let skips := fun x => x = ' ' || (x = '\t' && (s.inFlow || !s.keyAllowed))
    let c := (s.cursor.skipOrderMark.skipWhile skips).skipComment
    match c.lineBreak? with
    | some (_, c) => skipGap fuel { s with cursor := c, keyAllowed := s.keyAllowed || !s.inFlow }
    | none => { s with cursor := c }

/-- The end of the text, which ends its last line and closes all blocks. -/
def finish (s : Layout) : Option Layout := do
  let c := if s.cursor.column = 0 then s.cursor else s.cursor.newLine 0
  let s := { s with cursor := c }.closeBlocks (-1)
  let s ← s.dropKey
  return { s with keyAllowed := false }.push .streamEnd

/-- A token between documents, which closes all blocks. -/
def betweenDocuments (s : Layout) (read : Cursor → Option (Token × Cursor)) : Option Layout := do
  let s := s.closeBlocks (-1)
  let s ← s.dropKey
  let (t, c) ← read s.cursor
  return { s with keyAllowed := false }.accept t c

/-- An opening bracket. -/
def openBracket (s : Layout) (t : Token) : Option Layout := do
  let s ← s.noteKey
  return { s with keyAllowed := true, key := none, outerKeys := s.key :: s.outerKeys }.accept t
    (s.cursor.advance 1)

/-- A closing bracket. -/
def closeBracket (s : Layout) (t : Token) : Option Layout := do
  let s ← s.dropKey
  let s := match s.outerKeys with
    | [] => s
    | k :: ks => { s with key := k, outerKeys := ks }
  return { s with keyAllowed := false }.accept t (s.cursor.advance 1)

/-- A mark after which a key may start. -/
def separator (s : Layout) (t : Token) (allowKey : Bool) : Option Layout := do
  let s ← s.dropKey
  return { s with keyAllowed := allowKey }.accept t (s.cursor.advance 1)

/-- A mark that belongs to a block, which it opens if need be. Outside brackets it stands only where
a key may start. -/
def blockMark (s : Layout) (block : Token) : Option Layout :=
  if s.inFlow then some s
  else if s.keyAllowed then some (s.openBlock s.cursor.column s.tokens.length block)
  else none

/-- The colon behind a key. If the key had no mark of its own it gets one, and the block of the
mapping opens there. -/
def valueMark (s : Layout) : Option Layout :=
  match s.key with
  | some k =>
    let s := (s.insert k.position .key).openBlock k.column k.position .blockMappingStart
    some ({ s with key := none, keyAllowed := false }.accept .value (s.cursor.advance 1))
  | none => do
    let s ← s.blockMark .blockMappingStart
    return { s with keyAllowed := !s.inFlow }.accept .value (s.cursor.advance 1)

/-- A token that may be a key or stand in front of one. -/
def nodeToken (s : Layout) (read : Cursor → Option (Token × Cursor)) : Option Layout := do
  let s ← s.noteKey
  let (t, c) ← read s.cursor
  return { s with keyAllowed := false }.accept t c

/-- A block scalar. -/
def blockScalar (s : Layout) (literal : Bool) : Option Layout := do
  let s ← s.dropKey
  let (text, c) ← readBlock literal s.indent s.cursor
  let style := if literal then Style.literal else Style.folded
  return { s with keyAllowed := true }.accept (.scalar (String.ofList text) style) c

/-- A quoted scalar. -/
def quotedScalar (s : Layout) (single : Bool) : Option Layout :=
  s.nodeToken fun c => do
    let (text, c) ← readQuoted single c
    let style := if single then Style.singleQuoted else Style.doubleQuoted
    return (.scalar (String.ofList text) style, c)

/-- A plain scalar, behind which a key may start if it ends on a line of its own. -/
def plainScalar (s : Layout) : Option Layout := do
  let s ← s.noteKey
  let p ← readPlain s.inFlow (s.indent + 1).toNat s.cursor
  return { s with keyAllowed := p.leftLine }.accept (.scalar (String.ofList p.text) .plain) p.next

/-- The marks that no plain scalar starts with. -/
def isIndicator (c : Char) : Bool :=
  isFlowMark c || c = apostrophe ||
    c ∈ ['-', '?', ':', '#', '&', '*', '!', '|', '>', '"', '%', '@', '\x60']

/-- Whether a plain scalar starts with a character, given the text behind it. -/
def startsPlain (inFlow : Bool) (c : Char) (r : List Char) : Bool :=
  (!isIndicator c && !isBlank c) || (c = '-' && !(r.head?).any isBlank) ||
    (!inFlow && (c = '?' || c = ':') && !startsBlank r)

/-- Reads the token at the cursor. -/
def readToken (s : Layout) : Option Layout :=
  let c := s.cursor
  match c.rest with
  | [] => s.finish
  | x :: r =>
    if x = '%' && c.column = 0 then s.betweenDocuments readDirective
    else if c.atMarker '-' then s.betweenDocuments fun c => some (.documentStart, c.advance 3)
    else if c.atMarker '.' then s.betweenDocuments fun c => some (.documentEnd, c.advance 3)
    else if x = '[' then s.openBracket .flowSequenceStart
    else if x = '\x7b' then s.openBracket .flowMappingStart
    else if x = ']' then s.closeBracket .flowSequenceEnd
    else if x = '\x7d' then s.closeBracket .flowMappingEnd
    else if x = ',' then s.separator .flowEntry true
    else if x = '-' && startsBlank r then
      (s.blockMark .blockSequenceStart).bind (·.separator .blockEntry true)
    else if x = '?' && (s.inFlow || startsBlank r) then
      (s.blockMark .blockMappingStart).bind (·.separator .key (!s.inFlow))
    else if x = ':' && (s.inFlow || startsBlank r) then s.valueMark
    else if x = '*' then
      s.nodeToken fun c => (readAnchorName c).map fun p => (.alias p.1, p.2)
    else if x = '&' then
      s.nodeToken fun c => (readAnchorName c).map fun p => (.anchor p.1, p.2)
    else if x = '!' then s.nodeToken (readTag s.inFlow)
    else if x = '|' && !s.inFlow then s.blockScalar true
    else if x = '>' && !s.inFlow then s.blockScalar false
    else if x = apostrophe then s.quotedScalar true
    else if x = '"' then s.quotedScalar false
    else if startsPlain s.inFlow x r then s.plainScalar
    else none

/-- Reads the next token, and closes the blocks that end in front of it. -/
def next (s : Layout) : Option Layout := do
  let s ← (s.skipGap (s.cursor.rest.length + 1)).freshenKeys
  let s ← (s.closeBlocks s.cursor.column).readToken
  s.freshenKeys

/-- The tokens that nothing behind the cursor can change: those in front of all possible keys. -/
def settled (s : Layout) : List Token :=
  (s.key :: s.outerKeys).foldl
    (fun ts k => match k with
      | none => ts
      | some k => ts.take k.position) s.tokens

/-- Reads tokens up to the end of the text or to the first fault. A token that `canFollow` does not
accept is a fault as well. -/
def run (canFollow : Layout → Bool) : Nat → Layout → List Token
  | 0, s => s.settled
  | fuel + 1, s =>
    match s.next with
    | none => s.settled
    | some t =>
      if !canFollow t then s.settled
      else if t.tokens.getLast? = some .streamEnd then t.tokens
      else run canFollow fuel t

/-- Whether as many characters are left behind a token as the longest mark has with its blank. -/
def hasOutlook (s : Layout) : Bool := !(s.cursor.rest.drop 3).isEmpty

end Layout

/-! ## Blocks of bytes -/

/-- The number of bytes that are read from a text at a time. -/
def blockSize : Nat := 16384

/-- As many characters as fit into a number of bytes. -/
def takeBytes (n : Nat) : List Char → List Char
  | [] => []
  | c :: r => if c.utf8Size ≤ n then c :: takeBytes (n - c.utf8Size) r else []

/-- The blocks of a text in front of the first one with a character that YAML does not allow. A
block ends in front of a character that does not fit into it. -/
def readableBlocks : Nat → List Char → List Char
  | 0, _ => []
  | fuel + 1, text =>
    let block := takeBytes blockSize text
    if block.all isAllowed then block ++ readableBlocks fuel (text.drop block.length) else []

/-- The part of a text that can be read. -/
def readablePart (text : List Char) : List Char := readableBlocks text.length text

/-- The tokens of a text. A block of bytes with a character that YAML does not allow cannot be read;
then the tokens end where reading on needs that block. -/
def tokensOf (text : List Char) : List Token :=
  if text.all isAllowed then Layout.run (fun _ => true) (text.length + 1) (Layout.start text)
  else
    let part := readablePart text
    Layout.run Layout.hasOutlook (part.length + 1) (Layout.start part)

end MuxBridge.Yaml
