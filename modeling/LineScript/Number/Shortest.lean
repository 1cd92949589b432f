import LineScript.Number.Binary64

/-!
# Shortest decimals

A finite number is written with the fewest digits that read back as the same number; of two
texts with as many digits the nearer one is taken, and of two equally near ones the larger. The
text is positional: no exponent, and no point unless there is a fraction.

All comparisons are between natural numbers. Magnitudes are scaled by `10 ^ 400`, so that every
decimal place of a number is a whole number of the scaled units.
-/

namespace LineScript.Number

/-- A decimal: `digits * 10 ^ exponent`. -/
structure Decimal where
  digits : Nat
  exponent : Int
  deriving DecidableEq

/-- The decimal places below the point that the search can use. -/
def Decimal.places : Nat := 400

/-- The magnitudes that round to `units`, in quarters of a unit: both ends, and whether they
belong to the interval. Below a power of two the gap is half as wide. -/
structure Interval where
  low : Nat
  high : Nat
  closed : Bool

def Interval.around (units : Nat) : Interval :=
  let gap := Format.double.gap units
  let width := Nat.pow 2 gap
  let below := if 0 < gap ∧ units = Nat.pow 2 (gap + 52) then width else 2 * width
  { low := 4 * units - below
    high := 4 * units + 2 * width
    closed := units / width % 2 == 0 }

def Interval.contains (i : Interval) (scale : Nat) (x : Nat) : Bool :=
  if i.closed then i.low * scale ≤ x && x ≤ i.high * scale
  else i.low * scale < x && x < i.high * scale

/-- The multiple of `10 ^ place`, counted in scaled units, that the shortest search takes for
`units`: of the neighbours below and above those inside the interval, the nearer one. -/
def Decimal.onGrid? (units : Nat) (place : Nat) : Option Nat :=
  let scale := Nat.pow 10 Decimal.places
  let value := 4 * units * scale
  let step := 4 * Binary64.one * Nat.pow 10 place
  let below := value / step
  let interval := Interval.around units
  let downFits := interval.contains scale (below * step)
  let upFits := interval.contains scale ((below + 1) * step)
  if upFits && (!downFits || step ≤ 2 * (value % step)) then some (below + 1)
  else if downFits then some below
  else none

/-- The first grid with a hit, from the coarsest place down. -/
def Decimal.search (units : Nat) : Nat → Nat → Decimal
  | place, 0 => ⟨0, place - Decimal.places⟩
  | place, tries + 1 =>
    match Decimal.onGrid? units place with
    | some digits => ⟨digits, place - Decimal.places⟩
    | none => Decimal.search units (place - 1) tries

/-- A place above the first digit of a natural number, and at most two places above it: the
logarithm to base two gives it without the digits. -/
def Decimal.placeAbove (n : Nat) : Nat :=
  (n.log2 + 1) * 30103 / 100000 + 1

/-- The shortest decimal of a magnitude. The search starts above the first digit, for the power
of ten that the magnitude may round up to; seventeen digits always suffice. -/
def Decimal.shortest (units : Nat) : Decimal :=
  let scaled := units * Nat.pow 10 Decimal.places / Binary64.one
  Decimal.search units (Decimal.placeAbove scaled) 20

/-- The digits with a point before the last `places` of them. -/
def Decimal.withPoint (digits : List Char) (places : Nat) : List Char :=
  let padded := List.replicate (places + 1 - digits.length) '0' ++ digits
  padded.take (padded.length - places) ++ '.' :: padded.drop (padded.length - places)

/-- The positional text of a decimal. -/
def Decimal.text (d : Decimal) : List Char :=
  if 0 ≤ d.exponent then
    Nat.toDigits 10 d.digits ++ List.replicate d.exponent.toNat '0'
  else
    Decimal.withPoint (Nat.toDigits 10 d.digits) (-d.exponent).toNat

end LineScript.Number

namespace LineScript.Binary64

open Number

/-- The number as text, both signs of zero apart. -/
def toText : Binary64 → String
  | .nan => "NaN"
  | .infinite n => if n then "-inf" else "inf"
  | .finite n u _ =>
    let magnitude := if u = 0 then ['0'] else (Decimal.shortest u).text
    String.ofList (if n then '-' :: magnitude else magnitude)

end LineScript.Binary64
