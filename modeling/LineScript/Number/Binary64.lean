/-!
# Binary floating point numbers

A finite number is a sign and a magnitude, and the magnitude is a natural number of units, where
one unit is `2 ^ -1074`, the smallest positive number of the format. Every finite number is a
whole number of units, so sums and comparisons are those of integers, and any other exact result
is a quotient of two natural numbers that is rounded once, to the nearest number of the format,
half to even.

* `Format.nearest` rounds a quotient of units.
* `Binary64.ofRatio` is that rounding as a number, with overflow to infinity.
-/

namespace LineScript

namespace Number

/-- The quotient rounded to the nearest natural number, half to even. -/
def roundDiv (num den : Nat) : Nat :=
  if 2 * (num % den) < den then num / den
  else if den < 2 * (num % den) then num / den + 1
  else if num / den % 2 = 0 then num / den
  else num / den + 1

/-- A binary format, counted in units of `2 ^ -1074`: numbers have at most `precision`
significant bits, are multiples of `2 ^ finest` units and lie below `2 ^ limit` units. -/
structure Format where
  precision : Nat
  finest : Nat
  limit : Nat

/-- Double precision: 53 bits, down to one unit, below `2 ^ 1024`. -/
def Format.double : Format := ⟨53, 0, 2098⟩

/-- Single precision: 24 bits, down to `2 ^ -149`, below `2 ^ 128`. -/
def Format.single : Format := ⟨24, 925, 1202⟩

/-- The distance between neighbours of the format around `u` units is two to this power. -/
def Format.gap (f : Format) (u : Nat) : Nat :=
  max f.finest (u.log2 + 1 - f.precision)

/-- The multiple of the format's gap that is nearest to a quotient of units, half to even. -/
def Format.nearest (f : Format) (num den : Nat) : Nat :=
  let gap := f.gap (num / den)
  roundDiv num (den * Nat.pow 2 gap) * Nat.pow 2 gap

/-- A magnitude of double precision, in units. -/
def Fits (u : Nat) : Prop :=
  u % Nat.pow 2 (Format.double.gap u) = 0 ∧ u.log2 < Format.double.limit

instance (u : Nat) : Decidable (Fits u) :=
  inferInstanceAs (Decidable (_ ∧ _))

end Number

open Number

/-- A double precision number: its magnitude is `units * 2 ^ -1074`. Zero has two signs. -/
inductive Binary64 where
  | nan
  | infinite (negative : Bool)
  | finite (negative : Bool) (units : Nat) (fits : Fits units)
  deriving DecidableEq

namespace Binary64

/-- How many units make one. -/
def one : Nat := Nat.pow 2 1074

/-- The number of a magnitude that fits; one that does not is infinite. -/
def ofUnits (negative : Bool) (units : Nat) : Binary64 :=
  if fits : Fits units then .finite negative units fits else .infinite negative

/-- The number nearest to a quotient of units. -/
def ofUnitRatio (negative : Bool) (num den : Nat) : Binary64 :=
  ofUnits negative (Format.double.nearest num den)

/-- The number nearest to a quotient. -/
def ofRatio (negative : Bool) (num den : Nat) : Binary64 :=
  ofUnitRatio negative (num * one) den

/-- The number nearest to an integer; zero is positive. -/
def ofInt (n : Int) : Binary64 :=
  ofRatio (n < 0) n.natAbs 1

def ofNat (n : Nat) : Binary64 :=
  ofRatio false n 1

def zero (negative : Bool) : Binary64 :=
  .finite negative 0 (by decide)

instance : Inhabited Binary64 := ⟨zero false⟩

def isFinite : Binary64 → Bool
  | .finite .. => true
  | _ => false

/-- The signed number of units; nothing unless finite. -/
def signedUnits? : Binary64 → Option Int
  | .finite negative units _ => some (if negative then -units else units)
  | _ => none

/-- Strictly below, as numbers: the zeros are equal and a NaN is below nothing. -/
def lt : Binary64 → Binary64 → Bool
  | .nan, _ => false
  | _, .nan => false
  | .infinite n, .infinite m => n && !m
  | .infinite n, _ => n
  | _, .infinite m => !m
  | .finite n u _, .finite m v _ =>
    let x : Int := if n then -u else u
    let y : Int := if m then -v else v
    decide (x < y)

/-- Equal as numbers: the zeros are equal and a NaN equals nothing. -/
def eq : Binary64 → Binary64 → Bool
  | .infinite n, .infinite m => n == m
  | .finite n u _, .finite m v _ =>
    let x : Int := if n then -u else u
    let y : Int := if m then -v else v
    decide (x = y)
  | _, _ => false

def le (a b : Binary64) : Bool :=
  a.lt b || a.eq b

def isZero : Binary64 → Bool
  | .finite _ u _ => u == 0
  | _ => false

/-- The sign bit is set. A NaN counts as positive. -/
def isNegative : Binary64 → Bool
  | .nan => false
  | .infinite n => n
  | .finite n _ _ => n

@[simp] theorem ofUnits_of_fits {negative : Bool} {u : Nat} (h : Fits u) :
    ofUnits negative u = .finite negative u h := by
  simp [ofUnits, h]

end Binary64

end LineScript
