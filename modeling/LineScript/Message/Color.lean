import LineScript.Message

/-!
# Colours

A colour is `#` and three channels of two characters each, or of one, which then counts twice. A
channel of two characters is a hexadecimal number, which may carry a plus sign.
-/

namespace LineScript

structure Color where
  red : Nat
  green : Nat
  blue : Nat
  deriving DecidableEq

namespace Color

def hexValue? (c : Char) : Option Nat :=
  if '0' ≤ c && c ≤ '9' then some (c.toNat - '0'.toNat)
  else if 'a' ≤ c && c ≤ 'f' then some (c.toNat - 'a'.toNat + 10)
  else if 'A' ≤ c && c ≤ 'F' then some (c.toNat - 'A'.toNat + 10)
  else none

/-- A channel of two characters: a plus sign may stand for a leading zero. -/
def channel? (a b : Char) : Option Nat :=
  if a = '+' then hexValue? b
  else do return 16 * (← hexValue? a) + (← hexValue? b)

/-- A channel of one digit, which counts twice. -/
def shortChannel? (a : Char) : Option Nat :=
  (hexValue? a).map (17 * ·)

def ofText? (s : String) : Option Color :=
  match s.toList with
  | ['#', a, b, c, d, e, f] => do
    return ⟨← channel? a b, ← channel? c d, ← channel? e f⟩
  | ['#', a, b, c] => do
    return ⟨← shortChannel? a, ← shortChannel? b, ← shortChannel? c⟩
  | _ => none

/-- The terminal's code for the colour, after the code that says where it applies. -/
def code (place : String) (c : Color) : String :=
  place ++ ";2;" ++ toString c.red ++ ";" ++ toString c.green ++ ";" ++ toString c.blue

end Color

end LineScript
