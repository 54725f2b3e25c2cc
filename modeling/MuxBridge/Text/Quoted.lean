/-
# Quoted text in messages

A message quotes a text it complains about: quotes, backslashes and the usual controls get a
backslash, every other character that does not show becomes its code point in braces, and the rest
stands as it is. `Quoted.write` is that rule, character by character.
-/
import MuxBridge.Text.Printable

namespace MuxBridge

/-- A code point in hexadecimal, as `\u` and braces. -/
def Quoted.codePoint (c : Char) : List Char :=
  ['\\', 'u', '\x7b'] ++ Nat.toDigits 16 c.toNat ++ ['\x7d']

/-- One character inside quotes. -/
def Quoted.escape (c : Char) : List Char :=
  if c = '"' then ['\\', '"']
  else if c = '\\' then ['\\', '\\']
  else if c = '\n' then ['\\', 'n']
  else if c = '\r' then ['\\', 'r']
  else if c = '\t' then ['\\', 't']
  else if c.toNat = 0 then ['\\', '0']
  else if isPrintable c then [c]
  else Quoted.codePoint c

/-- A text in double quotes. -/
def Quoted.write (s : String) : String :=
  String.ofList ('"' :: (s.toList.flatMap Quoted.escape ++ ['"']))

end MuxBridge
