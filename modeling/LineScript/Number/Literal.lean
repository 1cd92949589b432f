import LineScript.Number.Arithmetic
import LineScript.Number.Reader
import LineScript.Number.Shortest
import LineScript.Number.Word32
import LineScript.Text.Blank

/-!
# Numbers in scripts

Scripts see finite numbers only. They may be surrounded by blanks, whole numbers are written
without a fraction and both zeros as `0`.
-/

namespace LineScript.Number

/-- The finite number that a text denotes, blanks around it aside. -/
def ofText? (s : String) : Option Binary64 :=
  (Binary64.ofText? (Text.trim s)).filter Binary64.isFinite

/-- Whole numbers up to this magnitude are distinct from their neighbours. -/
def largestExact : Nat := 9007199254740991

/-- The whole number that a text denotes, if it is exact. -/
def integerOfText? (s : String) : Option Int :=
  (ofText? s).bind fun x =>
    if x.isWhole && x.toInt.natAbs ≤ largestExact then some x.toInt else none

/-- The text of a number in a script. -/
def text (x : Binary64) : String :=
  if x.isZero then "0" else x.toText

end LineScript.Number
