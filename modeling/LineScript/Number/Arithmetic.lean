import LineScript.Number.Binary64

/-!
# Arithmetic

The four operations, the remainder of a truncated division, and rounding to whole numbers. Each
exact result is rounded once. An operation without a value gives NaN, and the sign of a zero
follows the operands.
-/

namespace LineScript.Binary64

open Number

/-- An exact sum of signed units; a zero has the given sign. -/
def ofSignedUnits (zeroNegative : Bool) (units : Int) : Binary64 :=
  if units = 0 then zero zeroNegative
  else ofUnitRatio (units < 0) units.natAbs 1

def neg : Binary64 → Binary64
  | .nan => .nan
  | .infinite n => .infinite (!n)
  | .finite n u h => .finite (!n) u h

def abs : Binary64 → Binary64
  | .nan => .nan
  | .infinite _ => .infinite false
  | .finite _ u h => .finite false u h

/-- The sum. A sum of zero is negative only if both operands are. -/
def add : Binary64 → Binary64 → Binary64
  | .nan, _ => .nan
  | _, .nan => .nan
  | .infinite n, .infinite m => if n == m then .infinite n else .nan
  | .infinite n, _ => .infinite n
  | _, .infinite m => .infinite m
  | .finite n u _, .finite m v _ =>
    let x : Int := if n then -u else u
    let y : Int := if m then -v else v
    ofSignedUnits (n && m) (x + y)

def sub (a b : Binary64) : Binary64 :=
  a.add b.neg

def mul : Binary64 → Binary64 → Binary64
  | .nan, _ => .nan
  | _, .nan => .nan
  | .infinite n, .infinite m => .infinite (n != m)
  | .infinite n, .finite m v _ => if v = 0 then .nan else .infinite (n != m)
  | .finite n u _, .infinite m => if u = 0 then .nan else .infinite (n != m)
  | .finite n u _, .finite m v _ => ofUnitRatio (n != m) (u * v) one

/-- The quotient. Anything else divided by zero is infinite. -/
def div : Binary64 → Binary64 → Binary64
  | .nan, _ => .nan
  | _, .nan => .nan
  | .infinite _, .infinite _ => .nan
  | .infinite n, .finite m _ _ => .infinite (n != m)
  | .finite n _ _, .infinite m => zero (n != m)
  | .finite n u _, .finite m v _ =>
    if v = 0 then
      if u = 0 then .nan else .infinite (n != m)
    else
      ofUnitRatio (n != m) (u * one) v

/-- The remainder of the division truncated towards zero; it has the sign of the dividend. -/
def rem : Binary64 → Binary64 → Binary64
  | .nan, _ => .nan
  | _, .nan => .nan
  | .infinite _, _ => .nan
  | .finite n u h, .infinite _ => .finite n u h
  | .finite n u _, .finite _ v _ =>
    if v = 0 then .nan else ofUnits n (u % v)

/-- The whole number of this magnitude. -/
def ofWhole (negative : Bool) (n : Nat) : Binary64 :=
  ofUnits negative (n * one)

/-- The fraction dropped. -/
def trunc : Binary64 → Binary64
  | .finite n u _ => ofWhole n (u / one)
  | x => x

/-- The largest whole number that is not above. -/
def floor : Binary64 → Binary64
  | .finite n u _ =>
    if n && u % one != 0 then ofWhole n (u / one + 1) else ofWhole n (u / one)
  | x => x

/-- The smallest whole number that is not below. -/
def ceil (x : Binary64) : Binary64 :=
  x.neg.floor.neg

def half : Binary64 :=
  ofRatio false 1 2

/-- The whole number below the sum with one half. -/
def round (x : Binary64) : Binary64 :=
  (x.add half).floor

/-- Minus one, zero or one. -/
def sign (x : Binary64) : Binary64 :=
  match x with
  | .nan => .nan
  | _ => if x.isZero then zero false else ofInt (if x.isNegative then -1 else 1)

/-- The nearest single precision number. -/
def single : Binary64 → Binary64
  | .finite n u _ =>
    let v := Format.single.nearest u 1
    if v.log2 < Format.single.limit then ofUnits n v else .infinite n
  | x => x

/-- There is no fraction. -/
def isWhole : Binary64 → Bool
  | .finite _ u _ => u % one == 0
  | _ => false

def min (a b : Binary64) : Binary64 :=
  if b.lt a then b else a

def max (a b : Binary64) : Binary64 :=
  if a.lt b then b else a

end LineScript.Binary64
