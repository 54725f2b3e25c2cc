/-
# Names in a YAML text

The names of anchors and aliases, tags with their handles, and the two directives in front of a
document. Every reader starts at the mark that announces the name and is `none` if the text is
faulty.
-/
import MuxBridge.Yaml.Scalar
import MuxBridge.Yaml.Token

namespace MuxBridge.Yaml

/-! ## Anchors and aliases -/

/-- The marks that may follow the name of an anchor directly. -/
def endsAnchor (c : Char) : Bool := c ∈ [' ', '\t', '?', ':', ',', ']', '\x7d', '%', '@', '\x60']

/-- Reads the name behind the mark of an anchor or alias. -/
def readAnchorName (c : Cursor) : Option (String × Cursor) :=
  let (name, c) := (c.advance 1).takeWhile isWord
  let ends := match c.rest with
    | [] => true
    | x :: _ => isBreak x || endsAnchor x
  if name.isEmpty || !ends then none else some (String.ofList name, c)

/-! ## Tags -/

/-- The characters of a tag other than escapes. Inside angle brackets and directives a tag may also
hold commas and square brackets. -/
def isTagChar (delimited : Bool) (c : Char) : Bool :=
  isWord c || c = apostrophe ||
    c ∈ [';', '/', '?', ':', '@', '&', '=', '+', '$', '.', '!', '~', '*', '(', ')'] ||
    (delimited && (c = ',' || c = '[' || c = ']'))

/-- One escaped byte. -/
def escapedByte? : List Char → Option Nat
  | '%' :: a :: b :: _ => do return (← hexValue? a) * 16 + (← hexValue? b)
  | _ => none

/-- How many bytes a character has whose first byte is given. -/
def encodedLength? (b : Nat) : Option Nat :=
  if b < 0x80 then some 1
  else if 0xc0 ≤ b ∧ b < 0xe0 then some 2
  else if 0xe0 ≤ b ∧ b < 0xf0 then some 3
  else if 0xf0 ≤ b ∧ b < 0xf8 then some 4
  else none

/-- Reads the escaped bytes that continue a character. -/
def continuation? : Nat → List Char → Option (List Nat)
  | 0, _ => some []
  | n + 1, cs => do
    let b ← escapedByte? cs
    if 0x80 ≤ b ∧ b < 0xc0 then return b :: (← continuation? n (cs.drop 3)) else none

/-- The character that bytes encode, or the replacement character where they encode none. -/
def decodeBytes (bs : List Nat) : Char :=
  match String.fromUTF8? ⟨(bs.map UInt8.ofNat).toArray⟩ with
  | some s => s.toList.headD (Char.ofNat 0xfffd)
  | none => Char.ofNat 0xfffd

/-- Reads a character whose bytes are escaped, and tells how many characters its escapes take. -/
def escapedTagChar? (cs : List Char) : Option (Char × Nat) := do
  let b ← escapedByte? cs
  let n ← encodedLength? b
  let more ← continuation? (n - 1) (cs.drop 3)
  return (decodeBytes (b :: more), 3 * n)

/-- Reads the characters of a tag behind those that are known. -/
def readTagChars (delimited : Bool) : Nat → List Char → Cursor → Option (List Char × Cursor)
  | 0, _, _ => none
  | fuel + 1, text, c =>
    match c.rest with
    | [] => some (text, c)
    | x :: _ =>
      if x = '%' then
        match escapedTagChar? c.rest with
        | none => none
        | some (y, n) => readTagChars delimited fuel (text ++ [y]) (c.advance n)
      else if isTagChar delimited x then readTagChars delimited fuel (text ++ [x]) (c.advance 1)
      else some (text, c)

/-- What the characters of a tag say: a null character, which only an escape can bring in, ends it.
-/
def tagText (cs : List Char) : List Char := cs.takeWhile fun c => c.toNat ≠ 0

/-- Reads the rest of a tag. `known` says whether a part of it was read before, so that the rest may
be empty. -/
def readTagRest (delimited known : Bool) (text : List Char) (c : Cursor) :
    Option (List Char × Cursor) :=
  match readTagChars delimited (c.rest.length + 1) text c with
  | none => none
  | some (all, next) => if !known && next.index = c.index then none else some (tagText all, next)

/-- Reads the handle of a tag: an exclamation mark, a word, and perhaps a second one. -/
def readHandle (c : Cursor) : Option (List Char × Cursor) :=
  match c.rest with
  | '!' :: _ =>
    let (word, c) := (c.advance 1).takeWhile isWord
    match c.rest with
    | '!' :: _ => some ('!' :: word ++ ['!'], c.advance 1)
    | _ => some ('!' :: word, c)
  | _ => none

/-- Whether a handle is closed by a second exclamation mark. -/
def isClosedHandle (handle : List Char) : Bool := 2 ≤ handle.length && handle.getLast? = some '!'

/-- Reads a tag at its mark: in angle brackets, behind a handle, or as a whole. -/
def readTagParts (c : Cursor) : Option (List Char × List Char × Cursor) :=
  if (c.rest.drop 1).head? = some '<' then
    match readTagRest true false [] (c.advance 2) with
    | none => none
    | some (suffix, c) =>
      if c.rest.head? = some '>' then some ([], suffix, c.advance 1) else none
  else
    match readHandle c with
    | none => none
    | some (handle, c) =>
      if isClosedHandle handle then
        match readTagRest false false [] c with
        | none => none
        | some (suffix, c) => some (handle, suffix, c)
      else
        match readTagRest false true (handle.drop 1) c with
        | none => none
        | some ([], c) => some ([], ['!'], c)
        | some (suffix, c) => some (['!'], suffix, c)

/-- Reads a tag. A blank follows it, or a comma inside brackets. -/
def readTag (inFlow : Bool) (c : Cursor) : Option (Token × Cursor) :=
  match readTagParts c with
  | none => none
  | some (handle, suffix, c) =>
    if startsBlank c.rest || (inFlow && c.rest.head? = some ',') then
      some (.tag (String.ofList handle) (String.ofList suffix), c)
    else none

/-! ## Directives -/

/-- Reads a part of a version: up to nine digits. -/
def readVersionNumber (c : Cursor) : Option (Nat × Cursor) :=
  let (digits, c) := c.takeWhile Char.isDigit
  if digits.isEmpty || 9 < digits.length then none
  else some (digits.foldl (fun n d => n * 10 + (d.toNat - '0'.toNat)) 0, c)

/-- Reads the version that a directive names. -/
def readVersion (c : Cursor) : Option (Token × Cursor) := do
  let (major, c) ← readVersionNumber (c.skipWhile isBlank)
  if c.rest.head? = some '.' then
    let (minor, c) ← readVersionNumber (c.advance 1)
    return (.version major minor, c)
  else none

/-- Reads the handle that a directive makes an abbreviation, and what it stands for. -/
def readAbbreviation (c : Cursor) : Option (Token × Cursor) := do
  let (handle, c) ← readHandle (c.skipWhile isBlank)
  if handle.length ≠ 1 ∧ !isClosedHandle handle then none
  else if !((c.rest.head?).any isBlank) then none
  else
    let (expansion, c) ← readTagRest true false [] (c.skipWhile isBlank)
    if startsBlank c.rest then
      return (.abbreviation (String.ofList handle) (String.ofList expansion), c)
    else none

/-- Reads the value of the directive with a name. -/
def readDirectiveValue (name : List Char) (c : Cursor) : Option (Token × Cursor) :=
  if name = ['Y', 'A', 'M', 'L'] then readVersion c
  else if name = ['T', 'A', 'G'] then readAbbreviation c
  else none

/-- Reads a directive and the rest of its line. -/
def readDirective (c : Cursor) : Option (Token × Cursor) := do
  let (name, c) := (c.advance 1).takeWhile isWord
  if name.isEmpty || !startsBlank c.rest then none
  else
    let (t, c) ← readDirectiveValue name c
    let c := (c.skipWhile isBlank).skipComment
    if c.rest.isEmpty then return (t, c)
    else
      let (_, c) ← c.lineBreak?
      return (t, c)

end MuxBridge.Yaml
