/-
# Cursors in a YAML text

A `Cursor` is the text that is left and where it stands: how many bytes lie before it, on which line
it is, and in which column. Indentation and one-line keys are questions of position, so every reader
of the text moves a cursor. Columns count characters and bytes measure the length of a key.
-/

namespace MuxBridge.Yaml

/-- A place in a text. -/
structure Cursor where
  rest : List Char
  /-- The number of bytes before the place. -/
  index : Nat
  line : Nat
  column : Nat
  deriving Repr

/-! ## Classes of characters -/

/-- Blanks inside a line. -/
def isBlank (c : Char) : Bool := c = ' ' || c = '\t'

/-- Line breaks: carriage return, line feed, next line, and the line and paragraph separators. -/
def isBreak (c : Char) : Bool :=
  c = '\n' || c = '\r' || c.toNat = 0x85 || c.toNat = 0x2028 || c.toNat = 0x2029

/-- The characters of names: letters, digits, underscores and dashes. -/
def isWord (c : Char) : Bool := c.isAlphanum || c = '_' || c = '-'

/-- The characters that a YAML text may hold at all. -/
def isAllowed (c : Char) : Bool :=
  let n := c.toNat
  n = 0x09 || n = 0x0a || n = 0x0d || (0x20 ≤ n && n ≤ 0x7e) || n = 0x85 ||
    (0xa0 ≤ n && n ≤ 0xd7ff) || (0xe000 ≤ n && n ≤ 0xfffd) || 0x10000 ≤ n

/-- Whether a text starts with a blank or a line break, or is empty. -/
def startsBlank : List Char → Bool
  | [] => true
  | c :: _ => isBlank c || isBreak c

/-- Whether a text starts with a line break or is empty. -/
def startsBreak : List Char → Bool
  | [] => true
  | c :: _ => isBreak c

/-- The number of bytes that characters take. -/
def byteCount (cs : List Char) : Nat := cs.foldl (fun n c => n + c.utf8Size) 0

namespace Cursor

/-- The start of a text. -/
def start (cs : List Char) : Cursor := ⟨cs, 0, 0, 0⟩

/-- Moves over some characters of the same line. -/
def advance (c : Cursor) (n : Nat) : Cursor :=
  { c with
    rest := c.rest.drop n
    index := c.index + byteCount (c.rest.take n)
    column := c.column + n }

/-- Moves over the characters of a class on the same line. -/
def skipWhile (p : Char → Bool) (c : Cursor) : Cursor := c.advance (c.rest.takeWhile p).length

/-- The characters of a class at the cursor, and the cursor behind them. -/
def takeWhile (p : Char → Bool) (c : Cursor) : List Char × Cursor :=
  (c.rest.takeWhile p, c.skipWhile p)

/-- Moves to the start of the next line, over as many characters as the line break has. -/
def newLine (c : Cursor) (n : Nat) : Cursor :=
  { rest := c.rest.drop n
    index := c.index + byteCount (c.rest.take n)
    line := c.line + 1
    column := 0 }

/-- The line break at the cursor, as a text keeps it, and the cursor behind it. All breaks but the
line and paragraph separators become a line feed. -/
def lineBreak? (c : Cursor) : Option (Char × Cursor) :=
  match c.rest with
  | '\r' :: '\n' :: _ => some ('\n', c.newLine 2)
  | x :: _ =>
    if isBreak x then
      some (if x.toNat = 0x2028 ∨ x.toNat = 0x2029 then x else '\n', c.newLine 1)
    else none
  | [] => none

/-- Whether the cursor stands at a document marker: three equal characters at the start of a line,
followed by a blank. -/
def atMarker (m : Char) (c : Cursor) : Bool :=
  c.column == 0 && c.rest.take 3 == [m, m, m] && startsBlank (c.rest.drop 3)

/-- Whether the cursor stands at any document marker. -/
def atAnyMarker (c : Cursor) : Bool := c.atMarker '-' || c.atMarker '.'

/-- Moves over a byte order mark at the start of a line, where it takes up a column. -/
def skipOrderMark (c : Cursor) : Cursor :=
  match c.rest with
  | x :: _ => if c.column = 0 && x.toNat = 0xfeff then c.advance 1 else c
  | [] => c

/-- Moves over blanks and a comment to the end of the line. -/
def skipComment (c : Cursor) : Cursor :=
  match c.rest with
  | '#' :: _ => c.skipWhile fun x => !isBreak x
  | _ => c

end Cursor

end MuxBridge.Yaml
