/-
# Scalars of a YAML text

The texts of plain, quoted and block scalars. Blanks and line breaks inside a scalar are gathered in
a `Gap` and folded: a single line break becomes a space, and of several the first is dropped.
-/
import MuxBridge.Text.Hex
import MuxBridge.Yaml.Cursor

namespace MuxBridge.Yaml

/-! ## Gaps -/

/-- The blanks and line breaks between two parts of a scalar. -/
structure Gap where
  blanks : List Char
  breaks : List Char
  /-- Whether the gap starts with a line break that the text escapes. -/
  escaped : Bool

namespace Gap

/-- Whether the gap leaves the line. -/
def leavesLine (g : Gap) : Bool := g.escaped || !g.breaks.isEmpty

/-- What a gap contributes to the text. -/
def text (g : Gap) : List Char :=
  if g.escaped then g.breaks
  else
    match g.breaks with
    | [] => g.blanks
    | '\n' :: [] => [' ']
    | '\n' :: bs => bs
    | bs => bs

/-- Reads the blanks and line breaks at the cursor. Behind a line break a tab must not stand left of
`indent`. -/
def read (indent : Nat) : Nat → Gap → Cursor → Option (Gap × Cursor)
  | 0, _, _ => none
  | fuel + 1, g, c =>
    match c.lineBreak? with
    | some (b, next) => read indent fuel { g with breaks := g.breaks ++ [b] } next
    | none =>
      match c.rest with
      | x :: _ =>
        if isBlank x then
          if g.leavesLine then
            if x = '\t' ∧ c.column < indent then none else read indent fuel g (c.advance 1)
          else read indent fuel { g with blanks := g.blanks ++ [x] } (c.advance 1)
        else some (g, c)
      | [] => some (g, c)

/-- Nothing between two parts. -/
def none : Gap := ⟨[], [], false⟩

end Gap

/-! ## Plain scalars -/

/-- The characters that structure collections inside brackets and braces. -/
def isFlowMark (c : Char) : Bool := c = ',' || c = '[' || c = ']' || c = '\x7b' || c = '\x7d'

/-- The characters of a plain scalar up to the next blank or to a mark that ends it. Inside brackets
a colon right before a mark is an error. -/
def plainRun (inFlow : Bool) : List Char → Option (List Char)
  | [] => some []
  | c :: r =>
    if isBlank c || isBreak c then some []
    else if c = ':' then
      match r with
      | [] => some []
      | d :: _ =>
        if inFlow && (isFlowMark d || d = '?') then none
        else if isBlank d || isBreak d then some []
        else (plainRun inFlow r).map (c :: ·)
    else if inFlow && isFlowMark c then some []
    else (plainRun inFlow r).map (c :: ·)

/-- A plain scalar: its text, whether it ends on a later line than its last character, and the
cursor behind it. -/
structure PlainScalar where
  text : List Char
  leftLine : Bool
  next : Cursor

/-- Reads the parts of a plain scalar. Outside brackets every line of it has at least the
indentation `indent`. -/
def readPlainParts (inFlow : Bool) (indent : Nat) :
    Nat → List Char → Gap → Cursor → Option PlainScalar
  | 0, _, _, _ => none
  | fuel + 1, text, gap, c =>
    if c.atAnyMarker || c.rest.head? = some '#' then some ⟨text, gap.leavesLine, c⟩
    else
      match plainRun inFlow c.rest with
      | none => none
      | some [] => some ⟨text, gap.leavesLine, c⟩
      | some run =>
        let text := text ++ gap.text ++ run
        let c := c.advance run.length
        match c.rest with
        | x :: _ =>
          if isBlank x || isBreak x then
            match Gap.read indent (c.rest.length + 1) Gap.none c with
            | none => none
            | some (gap, c) =>
              if !inFlow && c.column < indent then some ⟨text, gap.leavesLine, c⟩
              else readPlainParts inFlow indent fuel text gap c
          else some ⟨text, false, c⟩
        | [] => some ⟨text, false, c⟩

/-- Reads a plain scalar. -/
def readPlain (inFlow : Bool) (indent : Nat) (c : Cursor) : Option PlainScalar :=
  readPlainParts inFlow indent (c.rest.length + 1) [] Gap.none c

/-! ## Quoted scalars -/

/-- The character that a one-letter escape stands for. -/
def escapedChar? (c : Char) : Option Char :=
  match c with
  | '0' => some (Char.ofNat 0)
  | 'a' => some (Char.ofNat 0x07)
  | 'b' => some (Char.ofNat 0x08)
  | 't' | '\t' => some '\t'
  | 'n' => some '\n'
  | 'v' => some (Char.ofNat 0x0b)
  | 'f' => some (Char.ofNat 0x0c)
  | 'r' => some '\r'
  | 'e' => some (Char.ofNat 0x1b)
  | ' ' => some ' '
  | '"' => some '"'
  | '/' => some '/'
  | '\\' => some '\\'
  | 'N' => some (Char.ofNat 0x85)
  | '_' => some (Char.ofNat 0xa0)
  | 'L' => some (Char.ofNat 0x2028)
  | 'P' => some (Char.ofNat 0x2029)
  | _ => none

/-- The number of hexadecimal digits behind an escape. -/
def escapeWidth? (c : Char) : Option Nat :=
  match c with
  | 'x' => some 2
  | 'u' => some 4
  | 'U' => some 8
  | _ => none

/-- The value of hexadecimal digits, if there are as many as `width` says. -/
def hexNumber? (width : Nat) (cs : List Char) : Option Nat :=
  let ds := cs.take width
  if ds.length = width then
    ds.foldl (fun n c => do return (← n) * 16 + (← hexValue? c)) (some 0)
  else none

/-- The character with a code point, unless it is a surrogate or too large. -/
def charOfCode? (n : Nat) : Option Char :=
  if n.isValidChar then some (Char.ofNat n) else none

/-- The quotation mark of singly quoted scalars. -/
def apostrophe : Char := Char.ofNat 0x27

/-- Reads the characters of a quoted scalar up to a blank, to the closing quote or to an escaped
line break, which is skipped and reported. -/
def quotedRun (single : Bool) : Nat → List Char → Cursor → Option (List Char × Bool × Cursor)
  | 0, _, _ => none
  | fuel + 1, text, c =>
    match c.rest with
    | [] => some (text, false, c)
    | x :: r =>
      if isBlank x || isBreak x then some (text, false, c)
      else if single then
        if x = apostrophe then
          if r.head? = some apostrophe then
            quotedRun single fuel (text ++ [apostrophe]) (c.advance 2)
          else some (text, false, c)
        else quotedRun single fuel (text ++ [x]) (c.advance 1)
      else if x = '"' then some (text, false, c)
      else if x = '\\' then
        match (c.advance 1).lineBreak? with
        | some (_, next) => some (text, true, next)
        | none =>
          match r with
          | [] => none
          | e :: digits =>
            match escapedChar? e with
            | some y => quotedRun single fuel (text ++ [y]) (c.advance 2)
            | none =>
              match escapeWidth? e with
              | none => none
              | some width =>
                match (hexNumber? width digits).bind charOfCode? with
                | none => none
                | some y => quotedRun single fuel (text ++ [y]) (c.advance (2 + width))
      else quotedRun single fuel (text ++ [x]) (c.advance 1)

/-- Reads the parts of a quoted scalar up to and over its closing quote. -/
def readQuotedParts (single : Bool) : Nat → List Char → Cursor → Option (List Char × Cursor)
  | 0, _, _ => none
  | fuel + 1, text, c =>
    if c.atAnyMarker || c.rest.isEmpty then none
    else
      match quotedRun single (c.rest.length + 1) text c with
      | none => none
      | some (text, escaped, c) =>
        if !escaped && c.rest.head? = some (if single then apostrophe else '"') then
          some (text, c.advance 1)
        else
          match Gap.read 0 (c.rest.length + 1) ⟨[], [], escaped⟩ c with
          | none => none
          | some (gap, c) => readQuotedParts single fuel (text ++ gap.text) c

/-- Reads a quoted scalar at its opening quote. -/
def readQuoted (single : Bool) (c : Cursor) : Option (List Char × Cursor) :=
  readQuotedParts single (c.rest.length + 1) [] (c.advance 1)

/-! ## Block scalars -/

/-- What happens to the line breaks at the end of a block. -/
inductive Chomping where
  /-- All are dropped. -/
  | strip
  /-- One is kept. -/
  | clip
  /-- All are kept. -/
  | keep
  deriving DecidableEq, Repr

/-- Reads a chomping mark. -/
def chomping? : List Char → Option Chomping
  | '+' :: _ => some .keep
  | '-' :: _ => some .strip
  | _ => none

/-- Reads an indentation mark: a digit, but not zero. -/
def indentation? : List Char → Option (Option Nat)
  | c :: _ =>
    if c = '0' then none
    else some (if c.isDigit then some (c.toNat - '0'.toNat) else none)
  | [] => some none

/-- Reads the marks in the head of a block, in either order. -/
def readBlockHead (c : Cursor) : Option (Chomping × Option Nat × Cursor) :=
  match chomping? c.rest with
  | some ch =>
    let c := c.advance 1
    match indentation? c.rest with
    | none => none
    | some none => some (ch, none, c)
    | some (some n) => some (ch, some n, c.advance 1)
  | none =>
    match indentation? c.rest with
    | none => none
    | some none => some (.clip, none, c)
    | some (some n) =>
      let c := c.advance 1
      match chomping? c.rest with
      | some ch => some (ch, some n, c.advance 1)
      | none => some (.clip, some n, c)

/-- Moves over the indentation and the empty lines in front of a line of a block. While `indent` is
not known, the deepest line decides it. The result has the deepest column met and the line
breaks. -/
def readBlockBreaks (indent : Option Nat) :
    Nat → Nat → List Char → Cursor → Option (Nat × List Char × Cursor)
  | 0, _, _, _ => none
  | fuel + 1, deepest, breaks, c =>
    let spaces := (c.rest.takeWhile (· == ' ')).length
    let c := c.advance (match indent with
      | none => spaces
      | some n => min spaces (n - c.column))
    let deepest := max deepest c.column
    let inside := match indent with
      | none => true
      | some n => decide (c.column < n)
    if inside && c.rest.head? = some '\t' then none
    else
      match c.lineBreak? with
      | some (b, next) => readBlockBreaks indent fuel deepest (breaks ++ [b]) next
      | none => some (deepest, breaks, c)

/-- The text of a block so far: the line break behind its last line, and those of empty lines. -/
structure BlockText where
  text : List Char
  lastBreak : List Char
  emptyLines : List Char
  /-- Whether the last line started with a blank. -/
  blankStart : Bool

/-- Joins the next line of a block to the lines before it. -/
def BlockText.join (b : BlockText) (literal : Bool) (line : List Char) : List Char :=
  let startsWithBlank := match line with
    | x :: _ => isBlank x
    | [] => false
  let between :=
    if !literal && b.lastBreak.head? = some '\n' && !b.blankStart && !startsWithBlank then
      if b.emptyLines.isEmpty then [' '] else []
    else b.lastBreak
  b.text ++ between ++ b.emptyLines ++ line

/-- Reads the lines of a block that stand at its indentation. -/
def readBlockLines (literal : Bool) (indent : Nat) :
    Nat → BlockText → Cursor → Option (BlockText × Cursor)
  | 0, _, _ => none
  | fuel + 1, b, c =>
    if c.column = indent && !c.rest.isEmpty then
      let (line, c) := c.takeWhile fun x => !isBreak x
      let text := b.join literal line
      let (lastBreak, c) := match c.lineBreak? with
        | some (x, next) => ([x], next)
        | none => ([], c)
      match readBlockBreaks (some indent) (c.rest.length + 1) 0 [] c with
      | none => none
      | some (_, emptyLines, c) =>
        let blankStart := match line with
          | x :: _ => isBlank x
          | [] => false
        readBlockLines literal indent fuel ⟨text, lastBreak, emptyLines, blankStart⟩ c
    else some (b, c)

/-- Reads a block scalar at its mark, inside a block of the given indentation. -/
def readBlock (literal : Bool) (outer : Int) (c : Cursor) : Option (List Char × Cursor) :=
  match readBlockHead (c.advance 1) with
  | none => none
  | some (chomping, increment, c) =>
    let c := (c.skipWhile isBlank).skipComment
    if !startsBreak c.rest then none
    else
      let c := match c.lineBreak? with
        | some (_, next) => next
        | none => c
      let known := increment.map fun n => (max outer 0).toNat + n
      match readBlockBreaks known (c.rest.length + 1) 0 [] c with
      | none => none
      | some (deepest, emptyLines, c) =>
        let indent := known.getD (max deepest (max (outer + 1) 1).toNat)
        match readBlockLines literal indent (c.rest.length + 1) ⟨[], [], emptyLines, false⟩ c with
        | none => none
        | some (b, c) =>
          some (b.text ++ (if chomping = .strip then [] else b.lastBreak) ++
            (if chomping = .keep then b.emptyLines else []), c)

end MuxBridge.Yaml
