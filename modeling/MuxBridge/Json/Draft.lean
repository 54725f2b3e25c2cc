/-
# Drafts

A JSON text read as far as it makes sense. A `Draft` is a value whose parts may be flawed: a text
that breaks off or goes wrong still has a draft, which ends with the fault. So a reader that wants a
particular type meets type errors and syntax errors in the order in which the text has them, and a
reader that skips a value is lenient about what it never looks at.

The key construction is `Draft.ofText`; `Draft.ofJson` embeds finished values, and `Draft.settle`
turns a draft without flaws back into a value.
-/
import MuxBridge.Json.Numeral
import MuxBridge.Text.Hex

namespace MuxBridge

/-- How a text fails to be JSON: it ends too early, or it goes on in a wrong way. -/
inductive Fault where
  | ended
  | malformed
  deriving DecidableEq, Repr, Inhabited

/-- How something that cannot be read begins. -/
inductive Opening where
  /-- There is nothing: the text ends before it. -/
  | nothing
  | quote
  | other
  deriving DecidableEq, Repr, Inhabited

/-- A JSON text as far as it makes sense. -/
inductive Draft where
  | null
  | bool (b : Bool)
  | number (n : Number)
  | string (s : String)
  | array (items : List Draft) (ending : Option Fault)
  | object (members : List (Draft × Draft)) (ending : Option Fault)
  /-- Something that cannot be read: how it begins, the fault a reader of it meets, and the fault,
  if any, that remains when it is skipped. -/
  | flawed (opening : Opening) (read : Fault) (skipped : Option Fault)
  deriving Repr, Inhabited

namespace Draft

/-- A fault that stops readers and skippers alike. -/
def broken (opening : Opening) (f : Fault) : Draft := .flawed opening f (some f)

/-- The text ends where a value should begin. -/
def missing : Draft := broken .nothing .ended

/-! ## Characters -/

/-- JSON's blanks. -/
def isBlank (c : Char) : Bool := c = ' ' || c = '\t' || c = '\n' || c = '\r'

/-- A text after its blanks. -/
def skipBlanks (cs : List Char) : List Char := cs.dropWhile isBlank

/-- Reads a fixed word that stands for a value. -/
def readWord (value : Draft) : (word cs : List Char) → Draft × Option (List Char)
  | [], cs => (value, some cs)
  | _ :: _, [] => (broken .other .ended, none)
  | w :: ws, c :: cs => if w = c then readWord value ws cs else (broken .other .malformed, none)

/-! ## Strings -/

/-- A part of a string: a character, or a UTF-16 unit from a hexadecimal escape. -/
inductive Piece where
  | char (c : Char)
  | unit (n : Nat)
  deriving DecidableEq, Repr

/-- The value of four hexadecimal digits. -/
def hexUnit? (a b c d : Char) : Option Nat := do
  return (((← hexValue? a) * 16 + (← hexValue? b)) * 16 + (← hexValue? c)) * 16 + (← hexValue? d)

/-- The character a one-letter escape stands for. -/
def shortEscape? (c : Char) : Option Char :=
  match c with
  | '"' => some '"'
  | '\\' => some '\\'
  | '/' => some '/'
  | 'b' => some (Char.ofNat 0x08)
  | 'f' => some (Char.ofNat 0x0c)
  | 'n' => some '\n'
  | 'r' => some '\r'
  | 't' => some '\t'
  | _ => none

/-- Four digits are missing: the text ends too early if it has no four more bytes. -/
def missingDigits (cs : List Char) : Fault :=
  if (String.ofList cs).utf8ByteSize < 4 then .ended else .malformed

/-- The pieces of a string after its opening quote, up to its closing quote or to a fault. -/
def pieces : List Char → List Piece × Except Fault (List Char)
  | [] => ([], .error .ended)
  | '"' :: r => ([], .ok r)
  | '\\' :: 'u' :: a :: b :: c :: d :: r =>
    match hexUnit? a b c d with
    | some n =>
      let (ps, ending) := pieces r
      (.unit n :: ps, ending)
    | none => ([], .error .malformed)
  | '\\' :: 'u' :: r => ([], .error (missingDigits r))
  | '\\' :: c :: r =>
    match shortEscape? c with
    | some x =>
      let (ps, ending) := pieces r
      (.char x :: ps, ending)
    | none => ([], .error .malformed)
  | '\\' :: [] => ([], .error .ended)
  | c :: r =>
    if c.toNat < 0x20 then ([], .error .malformed)
    else
      let (ps, ending) := pieces r
      (.char c :: ps, ending)

/-- Whether a UTF-16 unit opens a surrogate pair. -/
def isHighSurrogate (n : Nat) : Bool := 0xd800 ≤ n && n ≤ 0xdbff

/-- Whether a UTF-16 unit closes a surrogate pair. -/
def isLowSurrogate (n : Nat) : Bool := 0xdc00 ≤ n && n ≤ 0xdfff

/-- The characters that pieces spell, unless a surrogate stands alone. -/
def assemble : List Piece → Option (List Char)
  | [] => some []
  | .char c :: ps => (assemble ps).map (c :: ·)
  | .unit h :: .unit l :: ps =>
    if isHighSurrogate h then
      if isLowSurrogate l then
        (assemble ps).map (Char.ofNat (0x10000 + (h - 0xd800) * 0x400 + (l - 0xdc00)) :: ·)
      else none
    else if isLowSurrogate h then none
    else (assemble (.unit l :: ps)).map (Char.ofNat h :: ·)
  | .unit h :: ps =>
    if isHighSurrogate h || isLowSurrogate h then none else (assemble ps).map (Char.ofNat h :: ·)

/-- Pieces without an opening surrogate at their end, whose partner the text no longer shows. -/
def dropOpenSurrogate (ps : List Piece) : List Piece :=
  match ps.getLast? with
  | some (.unit n) => if isHighSurrogate n then ps.dropLast else ps
  | _ => ps

/-- Reads a string after its opening quote. A surrogate that stands alone spoils the string for a
reader, but not for one who skips it. -/
def readString (cs : List Char) : Draft × Option (List Char) :=
  match pieces cs with
  | (ps, .ok rest) =>
    match assemble ps with
    | some s => (.string (String.ofList s), some rest)
    | none => (.flawed .quote .malformed none, some rest)
  | (ps, .error f) =>
    match assemble (dropOpenSurrogate ps) with
    | some _ => (broken .quote f, none)
    | none => (.flawed .quote .malformed (some f), none)

/-! ## Numbers -/

/-- Reads a number. One beyond the finite doubles cannot be read but can be skipped; one that the
text cuts short has merely ended for a reader and is malformed for one who skips it. -/
def readNumber (cs : List Char) : Draft × Option (List Char) :=
  match Numeral.read cs with
  | .numeral n rest =>
    match n.number? with
    | some x => (.number x, some rest)
    | none => (.flawed .other .malformed none, some rest)
  | .cutShort => (.flawed .other .ended (some .malformed), none)
  | .malformed => (broken .other .malformed, none)

/-! ## Values -/

mutual

/-- Reads a value; what follows it is returned unless a fault stopped the reading. -/
def readValue : Nat → List Char → Draft × Option (List Char)
  | 0, _ => (missing, none)
  | fuel + 1, cs =>
    match skipBlanks cs with
    | [] => (missing, none)
    | c :: r =>
      if c = '"' then readString r
      else if c = 'n' then readWord .null ['u', 'l', 'l'] r
      else if c = 't' then readWord (.bool true) ['r', 'u', 'e'] r
      else if c = 'f' then readWord (.bool false) ['a', 'l', 's', 'e'] r
      else if c = '-' ∨ c.isDigit then readNumber (c :: r)
      else if c = '[' then
        match skipBlanks r with
        | [] => (.array [] (some .ended), none)
        | d :: s =>
          if d = ']' then (.array [] none, some s)
          else
            let (items, ending, rest) := readItems fuel (d :: s)
            (.array items ending, rest)
      else if c = '\x7b' then
        match skipBlanks r with
        | [] => (.object [] (some .ended), none)
        | d :: s =>
          if d = '\x7d' then (.object [] none, some s)
          else
            let (members, ending, rest) := readMembers fuel (d :: s)
            (.object members ending, rest)
      else (broken .other .malformed, none)

/-- Reads the items of an array that is not empty, up to its closing bracket. -/
def readItems : Nat → List Char → List Draft × Option Fault × Option (List Char)
  | 0, _ => ([missing], some .ended, none)
  | fuel + 1, cs =>
    let (item, rest) := readValue fuel cs
    match rest with
    | none => ([item], some .malformed, none)
    | some r =>
      match skipBlanks r with
      | [] => ([item], some .ended, none)
      | c :: s =>
        if c = ']' then ([item], none, some s)
        else if c = ',' then
          let (items, ending, rest) := readItems fuel s
          (item :: items, ending, rest)
        else ([item], some .malformed, none)

/-- Reads the members of an object that is not empty, up to its closing brace. -/
def readMembers : Nat → List Char → List (Draft × Draft) × Option Fault × Option (List Char)
  | 0, _ => ([(missing, missing)], some .ended, none)
  | fuel + 1, cs =>
    let (name, afterName) :=
      match skipBlanks cs with
      | [] => (missing, none)
      | c :: r => if c = '"' then readString r else ((readValue fuel (c :: r)).1, none)
    match afterName with
    | none => ([(name, missing)], some .malformed, none)
    | some r =>
      match skipBlanks r with
      | [] => ([(name, missing)], some .ended, none)
      | c :: s =>
        if c = ':' then
          let (value, rest) := readValue fuel s
          match rest with
          | none => ([(name, value)], some .malformed, none)
          | some t =>
            match skipBlanks t with
            | [] => ([(name, value)], some .ended, none)
            | d :: u =>
              if d = '\x7d' then ([(name, value)], none, some u)
              else if d = ',' then
                let (members, ending, rest) := readMembers fuel u
                ((name, value) :: members, ending, rest)
              else ([(name, value)], some .malformed, none)
        else ([(name, broken .other .malformed)], some .malformed, none)

end

/-- The draft of a text, and the fault, if any, that lies behind its value. A bracket takes two
steps to read. -/
def ofText (text : String) : Draft × Option Fault :=
  let cs := text.toList
  match readValue (2 * cs.length + 2) cs with
  | (d, none) => (d, none)
  | (d, some rest) => (d, if skipBlanks rest = [] then none else some .malformed)

/-! ## Finished values -/

mutual

/-- A finished value as a draft. -/
def ofJson : Json → Draft
  | .null => .null
  | .bool b => .bool b
  | .number n => .number n
  | .string s => .string s
  | .array items => .array (ofItems items) none
  | .object members => .object (ofMembers members) none

/-- Finished items as drafts. -/
def ofItems : List Json → List Draft
  | [] => []
  | j :: js => ofJson j :: ofItems js

/-- Finished members as drafts. -/
def ofMembers : List (String × Json) → List (Draft × Draft)
  | [] => []
  | (name, j) :: ms => (.string name, ofJson j) :: ofMembers ms

end

/-! ## Skipping and settling -/

/-- The fault that skipping a member's name meets: a name is a string. -/
def nameFault : Draft → Option Fault
  | .string _ => none
  | .flawed .other _ _ => some .malformed
  | .flawed _ _ s => s
  | _ => some .malformed

/-- The name of a member, for a reader. -/
def name : Draft → Except Fault String
  | .string s => .ok s
  | .flawed .other _ _ => .error .malformed
  | .flawed _ f _ => .error f
  | _ => .error .malformed

mutual

/-- The fault that skipping a draft meets. -/
def skip : Draft → Option Fault
  | .array items ending => skipItems items ending
  | .object members ending => skipMembers members ending
  | .flawed _ _ s => s
  | _ => none

/-- The fault that skipping items meets. -/
def skipItems : List Draft → Option Fault → Option Fault
  | [], ending => ending
  | d :: ds, ending => (skip d).or (skipItems ds ending)

/-- The fault that skipping members meets. -/
def skipMembers : List (Draft × Draft) → Option Fault → Option Fault
  | [], ending => ending
  | (n, d) :: ms, ending =>
    match nameFault n with
    | none => (skip d).or (skipMembers ms ending)
    | some f => some f

end

/-- Goes one level deeper, if a bound on the levels allows it. -/
def deeper : Option Nat → Except Fault (Option Nat)
  | none => .ok none
  | some n => if n ≤ 1 then .error .malformed else .ok (some (n - 1))

/-- An ending as an outcome. -/
def close (ending : Option Fault) : Except Fault Unit :=
  match ending with
  | none => .ok ()
  | some f => .error f

mutual

/-- The finished value of a draft, within a bound on the levels of nesting. -/
def settle (room : Option Nat) : Draft → Except Fault Json
  | .null => .ok .null
  | .bool b => .ok (.bool b)
  | .number n => .ok (.number n)
  | .string s => .ok (.string s)
  | .array items ending => do
    let room ← deeper room
    let js ← settleItems room items
    close ending
    return .array js
  | .object members ending => do
    let room ← deeper room
    let ms ← settleMembers room members
    close ending
    return .object ms
  | .flawed _ f _ => .error f

/-- The finished values of items. -/
def settleItems (room : Option Nat) : List Draft → Except Fault (List Json)
  | [] => .ok []
  | d :: ds => do
    let j ← settle room d
    return j :: (← settleItems room ds)

/-- The finished members of an object. -/
def settleMembers (room : Option Nat) :
    List (Draft × Draft) → Except Fault (List (String × Json))
  | [] => .ok []
  | (n, d) :: ms => do
    let s ← name n
    let j ← settle room d
    return (s, j) :: (← settleMembers room ms)

end

end Draft

/-- The value of a text that is JSON throughout. -/
def Json.parse? (text : String) : Option Json :=
  match Draft.ofText text with
  | (d, none) => (d.settle none).toOption
  | (_, some _) => none

end MuxBridge
