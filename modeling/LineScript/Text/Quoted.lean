import LineScript.Text.Ranges
import LineScript.Text.Quoted.Table

/-!
# Quoted text

A text between double quotes, for showing the state of things to a person. Quotes and
backslashes are escaped, and a character without a shape of its own is shown by its code point.
-/

namespace LineScript.Text

namespace Quoted

/-- The character by its code point: a backslash, `u` and the hexadecimal digits in braces. -/
def codePoint (c : Char) : List Char :=
  ['\\', 'u', '\x7b'] ++ Nat.toDigits 16 c.toNat ++ ['\x7d']

/-- A control character of ASCII, or a character beyond it without a shape of its own. -/
def isShapeless (c : Char) : Bool :=
  c.toNat < 0x20 || c.toNat == 0x7f || inRanges shapelessRanges c

def encodeChar (c : Char) : List Char :=
  if c = '"' then ['\\', '"']
  else if c = '\\' then ['\\', '\\']
  else if c = '\n' then ['\\', 'n']
  else if c = '\r' then ['\\', 'r']
  else if c = '\t' then ['\\', 't']
  else if c.toNat = 0 then ['\\', '0']
  else if isShapeless c then codePoint c
  else [c]

end Quoted

/-- The text in double quotes. -/
def quoted (s : String) : String :=
  String.ofList (['"'] ++ s.toList.flatMap Quoted.encodeChar ++ ['"'])

/-- A list of quoted texts in square brackets. -/
def quotedList (items : List String) : String :=
  "[" ++ String.intercalate ", " (items.map quoted) ++ "]"

end LineScript.Text
