import LineScript.Number.Binary64

/-!
# Reading decimals

A number is an optional sign followed by digits with an optional point and an optional exponent,
or by one of the words `inf`, `infinity` and `nan` in any case. The value is the nearest number
of the format.
-/

namespace LineScript.Number

def isDigit (c : Char) : Bool :=
  '0' ≤ c && c ≤ '9'

def digitValue (c : Char) : Nat :=
  c.toNat - '0'.toNat

/-- Digits that have been read. The last ones stand in a block of their own, so that a long
number grows by a block at a time. -/
structure DigitBlocks where
  /-- The number before the block. -/
  high : Nat := 0
  block : Nat := 0
  /-- Ten to the number of digits in the block. -/
  width : Nat := 1

namespace DigitBlocks

/-- The number that the digits are. -/
def value (b : DigitBlocks) : Nat :=
  b.high * b.width + b.block

/-- The width of a full block. -/
def fullWidth : Nat := 100000000000000000

def push (b : DigitBlocks) (c : Char) : DigitBlocks :=
  if b.width = fullWidth then { high := b.value, block := digitValue c, width := 10 }
  else { b with block := 10 * b.block + digitValue c, width := 10 * b.width }

@[simp] theorem value_push (b : DigitBlocks) (c : Char) :
    (b.push c).value = 10 * b.value + digitValue c := by
  simp only [push]
  split
  · simp [value, Nat.mul_comm]
  · simp only [value, Nat.mul_add, Nat.mul_left_comm, Nat.add_assoc]

end DigitBlocks

/-- The value of a run of digits, most significant first. -/
def digitsValue (digits : List Char) : Nat :=
  (digits.foldl DigitBlocks.push {}).value

theorem value_foldl_push (b : DigitBlocks) (digits : List Char) :
    (digits.foldl DigitBlocks.push b).value =
      digits.foldl (fun n c => 10 * n + digitValue c) b.value := by
  induction digits generalizing b with
  | nil => rfl
  | cons c rest ih => simp [ih]

/-- The blocks do not show in the value. -/
theorem digitsValue_eq_foldl (digits : List Char) :
    digitsValue digits = digits.foldl (fun n c => 10 * n + digitValue c) 0 :=
  value_foldl_push {} digits

/-- The digits at the start, and what follows them. -/
def spanDigits (cs : List Char) : List Char × List Char :=
  cs.span isDigit

/-- A sign at the start, true for minus, and what follows it. -/
def readSign : List Char → Bool × List Char
  | '-' :: rest => (true, rest)
  | '+' :: rest => (false, rest)
  | cs => (false, cs)

/-- The value of the digits of an exponent. Once it has reached `2 ^ 16`, further digits do not
count. -/
def exponentValue (digits : List Char) : Nat :=
  digits.foldl
    (fun acc c => if acc < 65536 then 10 * acc + digitValue c else acc) 0

/-- The exponent that ends a number: nothing at all, or a mark, a sign and at least one digit. -/
def readExponent? : List Char → Option Int
  | [] => some 0
  | c :: rest =>
    if c = 'e' ∨ c = 'E' then
      let (negative, digits) := readSign rest
      if digits.isEmpty ∨ !digits.all isDigit then none
      else some (if negative then -(exponentValue digits) else exponentValue digits)
    else none

/-- The nearest number to the number that the digits are, times `10 ^ exponent`. Beyond four
hundred places above and below the point the outcome no longer depends on the digits. -/
def scale (negative : Bool) (digits : List Char) (exponent : Int) : Binary64 :=
  let digits := digits.dropWhile (· == '0')
  let top := exponent + digits.length
  if digits.isEmpty then Binary64.zero negative
  else if 400 < top then .infinite negative
  else if top < -400 then Binary64.zero negative
  else if 0 ≤ exponent then
    Binary64.ofRatio negative (digitsValue digits * Nat.pow 10 exponent.toNat) 1
  else Binary64.ofRatio negative (digitsValue digits) (Nat.pow 10 (-exponent).toNat)

/-- Digits with an optional point and an optional exponent. At least one digit stands beside the
point. -/
def readMagnitude? (negative : Bool) (cs : List Char) : Option Binary64 :=
  let (whole, rest) := spanDigits cs
  let (fraction, rest) :=
    match rest with
    | '.' :: rest => spanDigits rest
    | rest => ([], rest)
  if whole.isEmpty && fraction.isEmpty then none
  else
    (readExponent? rest).map fun exponent =>
      scale negative (whole ++ fraction) (exponent - fraction.length)

/-- The words for values that are not finite, in lower case. -/
def readWord? (negative : Bool) (cs : List Char) : Option Binary64 :=
  let word := String.ofList (cs.map Char.toLower)
  if word = "inf" ∨ word = "infinity" then some (.infinite negative)
  else if word = "nan" then some .nan
  else none

end LineScript.Number

namespace LineScript.Binary64

open Number

/-- The number that a text denotes. -/
def ofText? (s : String) : Option Binary64 :=
  let (negative, rest) := readSign s.toList
  match readWord? negative rest with
  | some x => some x
  | none => readMagnitude? negative rest

end LineScript.Binary64
