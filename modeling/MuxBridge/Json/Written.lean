/-
# Written JSON

The compact text of a JSON value: no blanks, members in their order, and only quotes, backslashes
and controls escaped. `Json.write` gives the characters and `Json.text` the string.
-/
import MuxBridge.Json.Basic
import MuxBridge.Decimal.Written

namespace MuxBridge

/-- JSON writes a double in full from five zeros after the point up to sixteen digits before it, and
with a signed exponent elsewhere. -/
def jsonFloats : NumberStyle := ⟨fun p => -5 < p && p ≤ 16, "+"⟩

namespace Json

/-- A digit of a hexadecimal escape. -/
def hexDigit (n : Nat) : Char := (Nat.digitChar n)

/-- One character of a string between its quotes. -/
def escape (c : Char) : List Char :=
  if c = '"' then ['\\', '"']
  else if c = '\\' then ['\\', '\\']
  else if c = '\n' then ['\\', 'n']
  else if c = '\r' then ['\\', 'r']
  else if c = '\t' then ['\\', 't']
  else if c.toNat = 0x08 then ['\\', 'b']
  else if c.toNat = 0x0c then ['\\', 'f']
  else if c.toNat < 0x20 then
    ['\\', 'u', '0', '0', hexDigit (c.toNat / 16), hexDigit (c.toNat % 16)]
  else [c]

/-- A string in quotes. -/
def writeString (s : String) : List Char :=
  '"' :: (s.toList.flatMap escape ++ ['"'])

/-- An integer in decimal. -/
def writeInt : Int → List Char
  | .ofNat n => Nat.toDigits 10 n
  | .negSucc n => '-' :: Nat.toDigits 10 (n + 1)

/-- A number. -/
def writeNumber : Number → List Char
  | .int n => writeInt n
  | .float x => (x.write jsonFloats).toList

mutual

/-- The characters of a value. -/
def write : Json → List Char
  | .null => ['n', 'u', 'l', 'l']
  | .bool true => ['t', 'r', 'u', 'e']
  | .bool false => ['f', 'a', 'l', 's', 'e']
  | .number n => writeNumber n
  | .string s => writeString s
  | .array items => '[' :: (writeItems items ++ [']'])
  | .object members => '\x7b' :: (writeMembers members ++ ['\x7d'])

/-- The items of an array, commas between them. -/
def writeItems : List Json → List Char
  | [] => []
  | [j] => write j
  | j :: k :: js => write j ++ ',' :: writeItems (k :: js)

/-- The members of an object, commas between them. -/
def writeMembers : List (String × Json) → List Char
  | [] => []
  | [(name, j)] => writeString name ++ ':' :: write j
  | (name, j) :: m :: ms => writeString name ++ ':' :: (write j ++ ',' :: writeMembers (m :: ms))

end

/-- The text of a value. -/
def text (j : Json) : String := String.ofList (write j)

end Json

end MuxBridge
