import LineScript.Number.Arithmetic

/-!
# Numbers as 32-bit words

A number loses its fraction and is wrapped into the 32-bit range by a remainder that is never
negative; the bitwise operations work on the word and give a number back.
-/

namespace LineScript.Binary64

/-- The magnitude without its fraction, signed; zero unless finite. -/
def toInt : Binary64 → Int
  | .finite n u _ => if n then -(u / one : Nat) else (u / one : Nat)
  | _ => 0

/-- The remainder that is never negative. Where the truncated division leaves one below zero, the
divisor's magnitude is added to it. -/
def remEuclid (a b : Binary64) : Binary64 :=
  let r := a.rem b
  if r.lt (zero false) then r.add b.abs else r

/-- The word nearest to a number without its fraction: one below zero becomes zero, one that is too
large the largest word. -/
def saturate : Binary64 → BitVec 32
  | .nan => 0
  | .infinite n => if n then 0 else BitVec.allOnes 32
  | .finite n u _ => if n then 0 else BitVec.ofNat 32 (Nat.min (u / one) (Nat.pow 2 32 - 1))

/-- One more than the largest word. -/
def wordRange : Binary64 := ofNat (Nat.pow 2 32)

/-- The number without its fraction, wrapped into a word; zero unless the number is finite. -/
def toWord (x : Binary64) : BitVec 32 :=
  if x.isFinite then (x.trunc.remEuclid wordRange).saturate else 0

/-- The number without its fraction, wrapped into the range from `-2 ^ 31` up to `2 ^ 31`. -/
def toInt32 (x : Binary64) : Int :=
  x.toWord.toInt

/-- The number of a word's signed value. -/
def ofWord (w : BitVec 32) : Binary64 :=
  ofInt w.toInt

/-- The low five bits of the word: how far to shift. -/
def shiftCount (x : Binary64) : Nat :=
  (x.toWord &&& 31).toNat

def shiftLeft (a b : Binary64) : Binary64 :=
  ofWord (a.toWord <<< b.shiftCount)

/-- The sign bit is shifted in. -/
def shiftRight (a b : Binary64) : Binary64 :=
  ofWord (a.toWord.sshiftRight b.shiftCount)

def xor (a b : Binary64) : Binary64 :=
  ofWord (a.toWord ^^^ b.toWord)

/-- How many zero bits stand before the first one of the word. -/
def leadingZeros (x : Binary64) : Binary64 :=
  ofNat (if x.toWord = 0 then 32 else 31 - x.toWord.toNat.log2)

end LineScript.Binary64
