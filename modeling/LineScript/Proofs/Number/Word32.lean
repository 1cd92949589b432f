import LineScript.Number.Chain
import Mathlib.Data.Int.ModEq
import Mathlib.Data.Rat.Floor

/-!
# Exact words

The bitwise operators take a number apart by floating-point steps: the fraction is dropped, a
remainder by `2 ^ 32` is taken, `2 ^ 32` may be added to it, and what comes out is made a word.
Here each of these is exact. A whole number with at most 53 bits fits the format (`fits_mul_one`),
a number that fits does so without its fraction as well (`fits_drop`), and where the exact result
of a step fits, rounding leaves it alone (`nearest_of_fits`).

So the word of a number is its whole part modulo `2 ^ 32` (`toWord_eq`), and `bitwise_exact` says
what this makes of the operators, with numbers read as exact rationals (`value?`).
-/

namespace LineScript

open Number

/-! ## Numbers that fit -/

namespace Number

theorem log2_mul_two_pow_lt {n k e : Nat} (pos : n ≠ 0) (small : n < 2 ^ k) :
    (n * 2 ^ e).log2 < k + e := by
  rw [Nat.log2_lt (Nat.mul_ne_zero pos (Nat.two_pow_pos e).ne'), Nat.pow_add]
  exact Nat.mul_lt_mul_of_pos_right small (Nat.two_pow_pos e)

theorem add_le_log2 {u k e : Nat} (large : 2 ^ k ≤ u / 2 ^ e) : k + e ≤ u.log2 := by
  have product : 2 ^ (k + e) ≤ u := by
    rw [Nat.pow_add]
    exact (Nat.le_div_iff_mul_le (Nat.two_pow_pos e)).mp large
  exact (Nat.le_log2 (Nat.lt_of_lt_of_le (Nat.two_pow_pos _) product).ne').mpr product

theorem gap_double (u : Nat) : Format.double.gap u = u.log2 + 1 - 53 :=
  Nat.zero_max _

theorem fits_iff {u : Nat} : Fits u ↔ 2 ^ (u.log2 + 1 - 53) ∣ u ∧ u.log2 < 2098 := by
  rw [Fits, gap_double, Nat.dvd_iff_mod_eq_zero]
  exact Iff.rfl

/-- At most 53 bits fit, followed by any number of zeros that stays in range. -/
theorem fits_mul_two_pow {n e : Nat} (small : n < 2 ^ 53) (low : e ≤ 2045) : Fits (n * 2 ^ e) := by
  rcases Nat.eq_zero_or_pos n with rfl | pos
  · rw [Nat.zero_mul]
    decide
  have below : (n * 2 ^ e).log2 < 53 + e := log2_mul_two_pow_lt pos.ne' small
  rw [fits_iff]
  exact ⟨Nat.dvd_trans (Nat.pow_dvd_pow 2 (by omega)) (Nat.dvd_mul_left (2 ^ e) n), by omega⟩

end Number

namespace Binary64

/-- The exponent is a variable here, so that nothing computes the power. -/
theorem one_eq : ∃ e, e = 1074 ∧ one = 2 ^ e := by
  have power : ∀ e, 1074 = e → one = 2 ^ e := by
    intro e exponent
    delta one
    rw [exponent, Nat.pow_eq]
  exact ⟨1074, rfl, power 1074 rfl⟩

theorem one_pos : 0 < one := by
  obtain ⟨e, -, one_eq⟩ := one_eq
  exact one_eq ▸ Nat.two_pow_pos e

attribute [local irreducible] one

/-- A whole number with at most 53 bits fits. -/
theorem fits_mul_one {n : Nat} (small : n < 2 ^ 53) : Fits (n * one) := by
  obtain ⟨e, exponent, one_eq⟩ := one_eq
  rw [one_eq]
  exact fits_mul_two_pow small (by omega)

/-- What fits does so without its fraction: either the whole part is small, or there is no
fraction. -/
theorem fits_drop {u : Nat} (fits : Fits u) : Fits (u / one * one) := by
  by_cases small : u / one < 2 ^ 53
  · exact fits_mul_one small
  obtain ⟨e, -, one_eq⟩ := one_eq
  rw [one_eq] at small ⊢
  have high : 53 + e ≤ u.log2 := add_le_log2 (Nat.le_of_not_lt small)
  have whole : 2 ^ e ∣ u := Nat.dvd_trans (Nat.pow_dvd_pow 2 (by omega)) (fits_iff.mp fits).1
  rwa [Nat.div_mul_cancel whole]

/-- Rounding leaves alone what fits. -/
theorem nearest_of_fits {u : Nat} (fits : Fits u) : Format.double.nearest u 1 = u := by
  obtain ⟨multiple, -⟩ := fits_iff.mp fits
  rw [Format.nearest, Nat.div_one, gap_double, Nat.one_mul, Nat.pow_eq, roundDiv,
    Nat.mod_eq_zero_of_dvd multiple, if_pos (Nat.two_pow_pos _), Nat.div_mul_cancel multiple]

theorem ofUnitRatio_of_fits {negative : Bool} {u : Nat} (fits : Fits u) :
    ofUnitRatio negative u 1 = .finite negative u fits := by
  rw [ofUnitRatio, nearest_of_fits fits, ofUnits_of_fits]

/-- A small integer is a number. -/
theorem ofInt_eq {n : Int} (small : n.natAbs < 2 ^ 53) :
    ofInt n = .finite (n < 0) (n.natAbs * one) (fits_mul_one small) := by
  rw [ofInt, ofRatio, ofUnitRatio_of_fits]

/-! ## Exact values -/

/-- The exact value of a finite number. -/
def value? (x : Binary64) : Option ℚ :=
  x.signedUnits?.map fun units : Int => (units : ℚ) / one

/-- The whole part of a quotient: what is left of it without the fraction. -/
def wholePart (q : ℚ) : ℤ :=
  if q < 0 then ⌈q⌉ else ⌊q⌋

theorem value?_ofInt {n : Int} (small : n.natAbs < 2 ^ 53) : (ofInt n).value? = some (n : ℚ) := by
  have pos : (one : ℚ) ≠ 0 := Nat.cast_ne_zero.mpr one_pos.ne'
  have units :
      (if decide (n < 0) then -((n.natAbs * one : Nat) : Int) else (n.natAbs * one : Nat)) =
      n * one := by
    push_cast
    by_cases negative : n < 0
    · simp [negative, abs_of_neg negative]
    · simp [negative, abs_of_nonneg (not_lt.mp negative)]
  rw [ofInt_eq small, value?, signedUnits?, Option.map_some, units]
  push_cast
  rw [mul_div_cancel_right₀ _ pos]

theorem value?_eq_none_iff {x : Binary64} : x.value? = none ↔ x.isFinite = false := by
  cases x <;> simp [value?, signedUnits?, isFinite]

/-- The magnitude without its fraction is the whole part of the exact value. -/
theorem toInt_eq_wholePart {x : Binary64} {q : ℚ} (value : x.value? = some q) :
    x.toInt = wholePart q := by
  cases x with
  | nan => simp [value?, signedUnits?] at value
  | infinite n => simp [value?, signedUnits?] at value
  | finite negative u fits =>
    have floor : ⌊(u / one : ℚ)⌋ = (u / one : Nat) := Rat.floor_natCast_div_natCast u one
    have nonneg : (0 : ℚ) ≤ u / one := div_nonneg (Nat.cast_nonneg u) (Nat.cast_nonneg one)
    simp only [value?, signedUnits?, Option.map_some, Option.some.injEq] at value
    cases negative with
    | false =>
      obtain rfl : (u / one : ℚ) = q := by simpa using value
      rw [wholePart, if_neg (not_lt.mpr nonneg), floor]
      rfl
    | true =>
      obtain rfl : -(u / one : ℚ) = q := by simpa [neg_div] using value
      by_cases zero : (u / one : ℚ) = 0
      · have none : u / one = 0 := by
          rw [zero, Int.floor_zero] at floor
          exact_mod_cast floor.symm
        simp [wholePart, zero, toInt, none]
      · have below : -(u / one : ℚ) < 0 := neg_neg_of_pos (lt_of_le_of_ne nonneg (Ne.symm zero))
        rw [wholePart, if_pos below, Int.ceil_neg, floor]
        rfl

/-! ## The word of a number -/

theorem wordRange_eq : wordRange = .finite false (2 ^ 32 * one) (fits_mul_one (by decide)) := by
  rw [wordRange, Nat.pow_eq, ofNat, ofRatio, ofUnitRatio_of_fits]

theorem trunc_finite {negative : Bool} {u : Nat} (fits : Fits u) :
    (finite negative u fits).trunc = .finite negative (u / one * one) (fits_drop fits) :=
  ofUnits_of_fits (fits_drop fits)

/-- The remainder of a whole number by `2 ^ 32`. -/
theorem rem_wordRange {negative : Bool} {n : Nat} (fits : Fits (n * one)) :
    (finite negative (n * one) fits).rem wordRange =
      .finite negative (n % 2 ^ 32 * one) (fits_mul_one (by omega)) := by
  have range : 2 ^ 32 * one ≠ 0 := (Nat.mul_pos (by decide) one_pos).ne'
  simp only [wordRange_eq, rem, if_neg range, Nat.mul_mod_mul_right]
  rw [ofUnits_of_fits]

/-- The remainder below zero, moved up. -/
theorem add_wordRange {m : Nat} (pos : 0 < m) (small : m < 2 ^ 32) :
    (finite true (m * one) (fits_mul_one (by omega))).add wordRange.abs =
      .finite false ((2 ^ 32 - m) * one) (fits_mul_one (by omega)) := by
  have sum : -((m * one : Nat) : Int) + (2 ^ 32 * one : Nat) = ((2 ^ 32 - m) * one : Nat) := by
    rw [Nat.sub_mul, Nat.cast_sub (Nat.mul_le_mul_right _ small.le)]
    omega
  have up : 0 < (2 ^ 32 - m) * one := Nat.mul_pos (by omega) one_pos
  rw [wordRange_eq]
  simp only [abs, add, if_true, Bool.false_eq_true, if_false, sum, ofSignedUnits]
  rw [if_neg (by omega), Int.natAbs_natCast, decide_eq_false (by omega)]
  exact ofUnitRatio_of_fits _

theorem lt_zero_iff {negative : Bool} {u : Nat} {fits : Fits u} :
    (finite negative u fits).lt (zero false) = true ↔ negative = true ∧ 0 < u := by
  cases negative <;> simp [lt, zero]

/-- The remainder that is never negative: one below zero is moved up. -/
theorem remEuclid_wordRange {negative : Bool} {n : Nat} (fits : Fits (n * one)) :
    (finite negative (n * one) fits).remEuclid wordRange =
      if negative = true ∧ 0 < n % 2 ^ 32 then
        .finite false ((2 ^ 32 - n % 2 ^ 32) * one) (fits_mul_one (by omega))
      else .finite negative (n % 2 ^ 32 * one) (fits_mul_one (by omega)) := by
  rw [remEuclid, rem_wordRange]
  simp only [lt_zero_iff, Nat.mul_pos_iff_of_pos_right one_pos]
  split
  next below =>
    obtain ⟨rfl, pos⟩ := below
    exact add_wordRange pos (Nat.mod_lt n (by decide))
  next => rfl

theorem saturate_finite {negative : Bool} {m : Nat} (fits : Fits (m * one)) (small : m < 2 ^ 32) :
    (finite negative (m * one) fits).saturate = if negative then 0 else BitVec.ofNat 32 m := by
  have kept : Nat.min m (2 ^ 32 - 1) = m := Nat.min_eq_left (by omega)
  rw [saturate, Nat.mul_div_cancel m one_pos, Nat.pow_eq, kept]

/-- The word of a whole number. -/
theorem saturate_remEuclid {negative : Bool} {n : Nat} (fits : Fits (n * one)) :
    ((finite negative (n * one) fits).remEuclid wordRange).saturate =
      BitVec.ofInt 32 (if negative then -n else n) := by
  have small : n % 2 ^ 32 < 2 ^ 32 := Nat.mod_lt n (by decide)
  apply BitVec.eq_of_toNat_eq
  rw [remEuclid_wordRange, BitVec.toNat_ofInt]
  split
  next below =>
    rw [saturate_finite _ (by omega), if_neg Bool.false_ne_true, if_pos below.1, BitVec.toNat_ofNat]
    omega
  next level =>
    rw [saturate_finite _ small]
    cases negative with
    | false =>
      rw [if_neg Bool.false_ne_true, if_neg Bool.false_ne_true, BitVec.toNat_ofNat]
      omega
    | true =>
      have none : n % 2 ^ 32 = 0 := by simpa using level
      rw [if_pos rfl, if_pos rfl]
      show 0 = _
      omega

/-- The word of a number is its whole part modulo `2 ^ 32`. -/
theorem toWord_eq (x : Binary64) : x.toWord = BitVec.ofInt 32 x.toInt := by
  cases x with
  | nan => rfl
  | infinite n => rfl
  | finite negative u fits =>
    rw [toWord, isFinite, if_pos rfl, trunc_finite, saturate_remEuclid, toInt]

theorem ofInt_toInt32 (x : Binary64) : BitVec.ofInt 32 x.toInt32 = x.toWord :=
  BitVec.ofInt_toInt

/-- The signed value of a word is the one integer of 32 bits among those congruent to it. -/
theorem word_eq_iff {w : BitVec 32} {m n : Int} (same : w.toInt ≡ m [ZMOD 2 ^ 32]) :
    w.toInt = n ↔ -2 ^ 31 ≤ n ∧ n < 2 ^ 31 ∧ n ≡ m [ZMOD 2 ^ 32] := by
  have low : -2 ^ 31 ≤ w.toInt := BitVec.le_toInt w
  have high : w.toInt < 2 ^ 31 := BitVec.toInt_lt
  constructor
  · rintro rfl
    exact ⟨low, high, same⟩
  · rintro ⟨above, below, other⟩
    have congruent := same.trans other.symm
    simp only [Int.ModEq] at congruent
    omega

theorem toInt32_modEq (x : Binary64) : x.toInt32 ≡ x.toInt [ZMOD 2 ^ 32] := by
  rw [toInt32, toWord_eq, BitVec.toInt_ofInt]
  exact Int.bmod_emod

theorem shiftLeft_modEq (w : BitVec 32) (k : Nat) :
    (w <<< k).toInt ≡ w.toInt * 2 ^ k [ZMOD 2 ^ 32] := by
  have word : w.toInt ≡ w.toNat [ZMOD 2 ^ 32] := by
    rw [BitVec.toInt_eq_toNat_bmod]
    exact Int.bmod_emod
  have shifted : (w <<< k).toInt ≡ (w.toNat <<< k : Nat) [ZMOD 2 ^ 32] := by
    rw [BitVec.toInt_shiftLeft]
    exact Int.bmod_emod
  rw [Nat.shiftLeft_eq] at shifted
  push_cast at shifted
  exact shifted.trans (word.symm.mul_right _)

theorem shiftCount_eq (x : Binary64) : x.shiftCount = (x.toInt32 % 32).toNat := by
  have low : x.shiftCount = x.toWord.toNat % 2 ^ 5 := by
    rw [shiftCount, BitVec.toNat_and]
    exact Nat.and_two_pow_sub_one_eq_mod _ 5
  rw [low, toInt32, BitVec.toInt_eq_toNat_cond]
  split <;> omega

theorem value?_ofWord (w : BitVec 32) : (ofWord w).value? = some (w.toInt : ℚ) := by
  have low := BitVec.le_toInt w
  have high := BitVec.toInt_lt (x := w)
  exact value?_ofInt (by omega)

/-- Numbers are read as exact rationals. The wrapped form of a finite number is the one integer
from `-2 ^ 31` up to `2 ^ 31` that is congruent modulo `2 ^ 32` to the number without its fraction,
and it is zero for a number that is not finite. With `A` and `B` the wrapped operands, and `k` the
rest of `B` by 32, a shift to the left is the signed integer of 32 bits congruent to `A * 2 ^ k`,
one to the right is `A / 2 ^ k` rounded down, and the exclusive or is that of the two's complements
of `A` and `B`. -/
theorem bitwise_exact (a b : Binary64) :
    (∀ x : Binary64, ∀ q, x.value? = some q → ∀ n : ℤ,
      x.toInt32 = n ↔ -2 ^ 31 ≤ n ∧ n < 2 ^ 31 ∧ n ≡ wholePart q [ZMOD 2 ^ 32]) ∧
    (∀ x : Binary64, x.value? = none → x.toInt32 = 0) ∧
    let A := a.toInt32
    let B := b.toInt32
    let k := (B % 32).toNat
    (∀ n : ℤ, (Operator.shiftLeft.apply a b).value? = some (n : ℚ) ↔
      -2 ^ 31 ≤ n ∧ n < 2 ^ 31 ∧ n ≡ A * 2 ^ k [ZMOD 2 ^ 32]) ∧
    (Operator.shiftRight.apply a b).value? = some (⌊(A : ℚ) / 2 ^ k⌋ : ℚ) ∧
    (Operator.xor.apply a b).value? =
      some ((BitVec.ofInt 32 A ^^^ BitVec.ofInt 32 B).toInt : ℚ) := by
  refine ⟨?_, ?_, ?_, ?_, ?_⟩
  · intro x q value n
    rw [← toInt_eq_wholePart value]
    exact word_eq_iff (toInt32_modEq x)
  · intro x none
    rw [toInt32, toWord, value?_eq_none_iff.mp none]
    rfl
  · intro n
    rw [show Operator.shiftLeft.apply a b = ofWord (a.toWord <<< b.shiftCount) from rfl,
      value?_ofWord, Option.some.injEq, Int.cast_inj]
    refine word_eq_iff ?_
    rw [← shiftCount_eq]
    exact shiftLeft_modEq a.toWord b.shiftCount
  · rw [show Operator.shiftRight.apply a b = ofWord (a.toWord.sshiftRight b.shiftCount) from rfl,
      value?_ofWord, BitVec.toInt_sshiftRight, Int.shiftRight_eq_div_pow, shiftCount_eq,
      ← Rat.floor_intCast_div_natCast]
    push_cast
    rfl
  · rw [ofInt_toInt32, ofInt_toInt32]
    exact value?_ofWord _

example : (ofInt (2 ^ 31)).toInt32 = -2 ^ 31 := by decide +kernel

example : (ofInt 1).shiftLeft (ofInt (-1)) = ofInt (-2 ^ 31) := by decide +kernel

end Binary64

end LineScript
