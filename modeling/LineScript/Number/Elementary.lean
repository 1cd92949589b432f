import LineScript.Number.Arithmetic
import LineScript.Number.Fixed
import LineScript.Number.Word32

/-!
# Elementary functions

Roots, powers, logarithms, the exponential, and the circular and hyperbolic functions. Each gives
the number nearest to the true value. The true value is enclosed with far more bits than the
format has; if the enclosure still holds a point half way between two numbers, that point is the
true value, and the even neighbour is taken.
-/

namespace LineScript.Binary64

open Number

/-- A finite number as a fixed point one, exactly. -/
def toFixed (negative : Bool) (units : Nat) : Fixed :=
  let magnitude : Int := (units <<< (Fixed.bits - 1074) : Nat)
  if negative then -magnitude else magnitude

/-- The number nearest to a positive quotient that is known up to `error` in its numerator. -/
def nearestWithin (negative : Bool) (num error den : Nat) : Binary64 :=
  let low := Format.double.nearest ((num - error) * one) den
  let high := Format.double.nearest ((num + error) * one) den
  if low = high then ofUnits negative low
  else ofUnitRatio negative (low + high) 2

/-- The number nearest to a real known as a fixed point number up to the margin. -/
def ofFixed (a : Fixed) : Binary64 :=
  nearestWithin (a < 0) a.natAbs (Fixed.margin a) Fixed.one.natAbs

/-- The number nearest to a quotient of two fixed point numbers, the second well away from
zero. -/
def ofFixedRatio (a b : Fixed) : Binary64 :=
  nearestWithin ((a < 0) != (b < 0)) (a.natAbs <<< 200) (Fixed.margin a <<< 200)
    (b.natAbs <<< 200)

/-- The square root. It is correct to the last bit, since a root that is not a whole number of
small fractions of a unit lies strictly between two of them. -/
def sqrt : Binary64 → Binary64
  | .finite n u h =>
    if u = 0 then .finite n u h
    else if n then .nan
    else
      let scaled := u <<< (1074 + 400)
      let root := Fixed.natSqrt scaled
      if root * root = scaled then ofUnitRatio false root (Nat.pow 2 200)
      else ofUnitRatio false (2 * root + 1) (Nat.pow 2 201)
  | .infinite n => if n then .nan else .infinite false
  | .nan => .nan

/-- The cube root, in the same way. -/
def cbrt : Binary64 → Binary64
  | .finite n u h =>
    if u = 0 then .finite n u h
    else
      let scaled := u <<< (2 * 1074 + 600)
      let root := Fixed.natCbrt scaled
      if root * root * root = scaled then ofUnitRatio n root (Nat.pow 2 200)
      else ofUnitRatio n (2 * root + 1) (Nat.pow 2 201)
  | x => x

/-- The exponential of a fixed point exponent; far outside the range of the format it is
infinite or zero. -/
def expOfFixed (negative : Bool) (a : Fixed) : Binary64 :=
  if 800 * Fixed.one < a then .infinite negative
  else if a < -800 * Fixed.one then zero negative
  else
    let e := ofFixed (Fixed.exp a)
    if negative then e.neg else e

def exp : Binary64 → Binary64
  | .nan => .nan
  | .infinite n => if n then zero false else .infinite false
  | .finite n u _ => expOfFixed false (toFixed n u)

/-- The natural logarithm of a positive magnitude, in fixed point. -/
def lnUnits (units : Nat) : Fixed :=
  Fixed.lnRatio units one

/-- A logarithm: the given function on a positive magnitude other than one. -/
def logarithm (f : Nat → Binary64) : Binary64 → Binary64
  | .nan => .nan
  | .infinite n => if n then .nan else .infinite false
  | .finite n u _ =>
    if u = 0 then .infinite true
    else if n then .nan
    else if u = one then zero false
    else f u

def ln : Binary64 → Binary64 :=
  logarithm fun u => ofFixed (lnUnits u)

def log2 : Binary64 → Binary64 :=
  logarithm fun u => ofFixedRatio (lnUnits u) Fixed.ln2

def log10 : Binary64 → Binary64 :=
  logarithm fun u => ofFixedRatio (lnUnits u) (Fixed.lnRatio 10 1)

/-- A circular function of a finite number other than zero. -/
def circular (atZero : Binary64 → Binary64) (f : Fixed × Fixed → Binary64) :
    Binary64 → Binary64
  | .finite n u h =>
    if u = 0 then atZero (.finite n u h) else f (Fixed.sinCos (toFixed n u))
  | _ => .nan

def sin : Binary64 → Binary64 :=
  circular id fun sc => ofFixed sc.1

def cos : Binary64 → Binary64 :=
  circular (fun _ => ofNat 1) fun sc => ofFixed sc.2

def tan : Binary64 → Binary64 :=
  circular id fun sc => ofFixedRatio sc.1 sc.2

def atan : Binary64 → Binary64
  | .nan => .nan
  | .infinite n =>
    let quarter := ofFixed (Fixed.pi / 2)
    if n then quarter.neg else quarter
  | .finite n u h =>
    if u = 0 then .finite n u h else ofFixed (Fixed.atan (toFixed n u))

/-- The angle whose sine is `a`, which lies strictly between minus one and one. -/
def asinFixed (a : Fixed) : Fixed :=
  Fixed.atan (Fixed.div a (Fixed.sqrt (Fixed.one - Fixed.mul a a)))

def asin : Binary64 → Binary64
  | .finite n u h =>
    if u = 0 then .finite n u h
    else if one < u then .nan
    else if u = one then ofFixed (if n then -(Fixed.pi / 2) else Fixed.pi / 2)
    else ofFixed (asinFixed (toFixed n u))
  | _ => .nan

def acos : Binary64 → Binary64
  | .finite n u _ =>
    if one < u then .nan
    else if u = one then
      if n then ofFixed Fixed.pi else zero false
    else ofFixed (Fixed.pi / 2 - asinFixed (toFixed n u))
  | _ => .nan

def asinh : Binary64 → Binary64
  | .finite n u h =>
    if u = 0 then .finite n u h
    else
      let a := toFixed false u
      let r := ofFixed (Fixed.ln (a + Fixed.sqrt (Fixed.mul a a + Fixed.one)))
      if n then r.neg else r
  | x => x

def acosh : Binary64 → Binary64
  | .finite n u _ =>
    if n || u < one then .nan
    else if u = one then zero false
    else
      let a := toFixed false u
      ofFixed (Fixed.ln (a + Fixed.sqrt (Fixed.mul a a - Fixed.one)))
  | .infinite n => if n then .nan else .infinite false
  | .nan => .nan

def atanh : Binary64 → Binary64
  | .finite n u h =>
    if u = 0 then .finite n u h
    else if one < u then .nan
    else if u = one then .infinite n
    else
      let r := ofFixed (Fixed.lnRatio (one + u) (one - u) / 2)
      if n then r.neg else r
  | _ => .nan

/-- A whole number that is odd. -/
def isOdd : Binary64 → Bool
  | .finite _ u _ => u % one == 0 && u / one % 2 == 1
  | _ => false

/-- The power with an infinite exponent of a base with magnitude `u`. -/
def powInfinite (u : Nat) (negative : Bool) : Binary64 :=
  if u = one then ofNat 1
  else if (u < one) == negative then .infinite false
  else zero false

/-- The power. Anything to the power zero is one, and so is any power of one; an odd power keeps
the sign of the base, and a negative base has only whole powers. -/
def pow (x y : Binary64) : Binary64 :=
  if y.isZero || x.eq (ofNat 1) then ofNat 1
  else
    match x, y with
    | .nan, _ => .nan
    | _, .nan => .nan
    | .infinite n, _ =>
      if y.isNegative then zero (n && y.isOdd) else .infinite (n && y.isOdd)
    | .finite _ u _, .infinite m => powInfinite u m
    | .finite n u _, .finite m v h =>
      let odd := isOdd (.finite m v h)
      if u = 0 then
        if m then .infinite (n && odd) else zero (n && odd)
      else if n && v % one != 0 then .nan
      else expOfFixed (n && odd) (Fixed.mul (toFixed m v) (lnUnits u))

end LineScript.Binary64
