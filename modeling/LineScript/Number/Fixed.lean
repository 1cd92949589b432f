/-!
# Fixed point numbers of high precision

A real number is approximated by an integer multiple of `2 ^ -2600`. Series and root iterations
lose a few hundred of the last multiples at most, and squaring and scaling the exponential costs
another hundred bits of a large result. Results are used with a margin above both
(`Fixed.margin`), so the margin encloses the true value.
-/

namespace LineScript.Number

/-- A multiple of `2 ^ -2600`. -/
abbrev Fixed := Int

namespace Fixed

def bits : Nat := 2600

def one : Fixed := Int.ofNat (Nat.pow 2 bits)

/-- A bound on the error of a result of this module, in multiples. A large result is only known
up to a part in `2 ^ 2400`. -/
def margin (a : Fixed) : Nat :=
  Nat.pow 2 100 + a.natAbs >>> 2400

def mul (a b : Fixed) : Fixed :=
  (a * b) >>> bits

def div (a b : Fixed) : Fixed :=
  (a <<< bits) / b

/-- The integer below the square root: Newton's iteration from above falls until it arrives. -/
def natSqrtFrom (n : Nat) : Nat → Nat → Nat
  | 0, x => x
  | fuel + 1, x =>
    let next := (x + n / x) / 2
    if next < x then natSqrtFrom n fuel next else x

def natSqrt (n : Nat) : Nat :=
  if n = 0 then 0 else natSqrtFrom n (n.log2 + 2) (Nat.pow 2 (n.log2 / 2 + 1))

/-- The integer below the cube root, by the same iteration. -/
def natCbrtFrom (n : Nat) : Nat → Nat → Nat
  | 0, x => x
  | fuel + 1, x =>
    let next := (2 * x + n / (x * x)) / 3
    if next < x then natCbrtFrom n fuel next else x

def natCbrt (n : Nat) : Nat :=
  if n = 0 then 0 else natCbrtFrom n (n.log2 + 2) (Nat.pow 2 (n.log2 / 3 + 1))

def sqrt (a : Fixed) : Fixed :=
  natSqrt (a.toNat <<< bits)

/-- The sum of `term k / (start + k * step)` where each term is the one before it times `ratio`,
until the terms vanish. -/
def powerSeries (ratio : Fixed) (step : Nat) : Nat → Nat → Fixed → Fixed → Fixed
  | 0, _, _, sum => sum
  | fuel + 1, divisor, term, sum =>
    if term = 0 ∨ term = -1 then sum
    else powerSeries ratio step fuel (divisor + step) (mul term ratio) (sum + term / divisor)

/-- `arctan z` for `|z| ≤ 1/4`. -/
def atanSeries (z : Fixed) : Fixed :=
  powerSeries (-(mul z z)) 2 bits 1 z 0

/-- `artanh z` for `|z| ≤ 1/2`. -/
def atanhSeries (z : Fixed) : Fixed :=
  powerSeries (mul z z) 2 bits 1 z 0

/-- Machin's formula. -/
def pi : Fixed :=
  16 * atanSeries (one / 5) - 4 * atanSeries (one / 239)

def ln2 : Fixed :=
  2 * atanhSeries (one / 3)

/-- The sum of a series whose `k`-th term is the one before it times `ratio`, divided by two
consecutive numbers. -/
def factorialSeries (ratio : Fixed) : Nat → Nat → Fixed → Fixed → Fixed
  | 0, _, _, sum => sum
  | fuel + 1, k, term, sum =>
    if term = 0 ∨ term = -1 then sum
    else factorialSeries ratio fuel (k + 2) (mul term ratio / (k * (k + 1) : Nat)) (sum + term)

/-- `sin r` for a small `r`. -/
def sinSeries (r : Fixed) : Fixed :=
  factorialSeries (-(mul r r)) bits 2 r 0

/-- `cos r` for a small `r`. -/
def cosSeries (r : Fixed) : Fixed :=
  factorialSeries (-(mul r r)) bits 1 one 0

/-- The exponential series. -/
def expSeries (r : Fixed) : Nat → Nat → Fixed → Fixed → Fixed
  | 0, _, _, sum => sum
  | fuel + 1, k, term, sum =>
    if term = 0 ∨ term = -1 then sum
    else expSeries r fuel (k + 1) (mul term r / (k : Int)) (sum + term)

/-- Squared `n` times. -/
def squareTimes : Nat → Fixed → Fixed
  | 0, a => a
  | n + 1, a => squareTimes n (mul a a)

/-- The exponential: a power of two taken out, the rest divided by `2 ^ 32`, the series, and 32
squarings. -/
def exp (a : Fixed) : Fixed :=
  let k := a / ln2
  let r := (a - k * ln2) / Int.ofNat (Nat.pow 2 32)
  let e := squareTimes 32 (expSeries r bits 1 one 0)
  if 0 ≤ k then e <<< k.toNat else e >>> (-k).toNat

/-- The natural logarithm of `num / den`, both positive: a power of two taken out, and the rest,
which lies between one half and two, by the inverse hyperbolic tangent. -/
def lnRatio (num den : Nat) : Fixed :=
  let k : Int := num.log2 - den.log2
  let m : Fixed := if 0 ≤ k then (num <<< bits : Nat) / (den <<< k.toNat : Nat)
    else (num <<< (bits + (-k).toNat) : Nat) / (den : Int)
  k * ln2 + 2 * atanhSeries (div (m - one) (m + one))

/-- The natural logarithm of a positive number. -/
def ln (a : Fixed) : Fixed :=
  lnRatio a.toNat (Nat.pow 2 bits)

/-- `arctan z` for `|z| ≤ 1`: the angle is halved often enough for the series. -/
def atanHalving : Nat → Fixed → Fixed
  | 0, z => atanSeries z
  | n + 1, z => 2 * atanHalving n (div z (one + sqrt (one + mul z z)))

/-- `arctan z`. -/
def atan (z : Fixed) : Fixed :=
  if z.natAbs ≤ one.natAbs then atanHalving 8 z
  else if 0 < z then pi / 2 - atanHalving 8 (div one z)
  else -(pi / 2) - atanHalving 8 (div one z)

/-- The sine and the cosine of an angle: whole quarter turns are taken out first. -/
def sinCos (a : Fixed) : Fixed × Fixed :=
  let quarter := pi / 2
  let turns := (a + quarter / 2) / quarter
  let r := a - turns * quarter
  let s := sinSeries r
  let c := cosSeries r
  match (turns % 4).toNat with
  | 0 => (s, c)
  | 1 => (c, -s)
  | 2 => (-s, -c)
  | _ => (-c, s)

end Fixed

end LineScript.Number
