import LineScript.Proofs.Number.Word32
import Mathlib.Data.Nat.Log

/-!
# Rounding between numbers that fit

A quotient rounds to the whole number that lies within half a divisor of it, and from half way to
the even one of its neighbours. Rounding to a multiple of the gap does not pass a number that fits
(`le_nearest`, `nearest_le`), and what comes out fits unless it is out of range (`fits_nearest`).
-/

namespace LineScript

namespace Number

/-! ## Quotients -/

section

variable {num den c d : Nat}

theorem le_roundDiv (pos : 0 < den) (le : c * den ≤ num) : c ≤ roundDiv num den := by
  have floor : c ≤ num / den := (Nat.le_div_iff_mul_le pos).mpr le
  unfold roundDiv
  split_ifs <;> omega

theorem roundDiv_le (pos : 0 < den) (le : num ≤ c * den) : roundDiv num den ≤ c := by
  have floor : num / den ≤ c := Nat.div_le_of_le_mul (Nat.mul_comm c den ▸ le)
  -- A quotient below `c` may go up by one; one that is `c` leaves no remainder.
  by_cases below : num / den < c
  · unfold roundDiv
    split_ifs <;> omega
  · have same : num / den = c := by omega
    have whole := Nat.div_add_mod num den
    rw [same, Nat.mul_comm den c] at whole
    have exact : num % den = 0 := by omega
    rw [roundDiv, if_pos (by omega), same]

theorem quotient_eq (c : Nat) (small : d < den) :
    (c * den + d) / den = c ∧ (c * den + d) % den = d :=
  (Nat.div_mod_unique (by omega)).mpr ⟨by rw [Nat.mul_comm, Nat.add_comm], small⟩

/-- Just above a multiple. -/
theorem roundDiv_of_above (close : 2 * d < den) : roundDiv (c * den + d) den = c := by
  obtain ⟨quotient, rest⟩ := quotient_eq c (show d < den by omega)
  rw [roundDiv, rest, quotient, if_pos close]

/-- Just below a multiple. -/
theorem roundDiv_of_below (close : 2 * d < den) (eq : num + d = c * den) :
    roundDiv num den = c := by
  rcases Nat.eq_zero_or_pos d with rfl | pos
  · rw [Nat.add_zero] at eq
    rw [eq]
    exact roundDiv_of_above (d := 0) close
  · obtain ⟨b, rfl⟩ : ∃ b, c = b + 1 := Nat.exists_eq_succ_of_ne_zero fun none => by
      rw [none] at eq
      omega
    have num_eq : num = b * den + (den - d) := by
      rw [Nat.succ_mul] at eq
      omega
    obtain ⟨quotient, rest⟩ := quotient_eq b (show den - d < den by omega)
    rw [num_eq, roundDiv, rest, quotient, if_neg (by omega), if_pos (by omega)]

/-- Half way between two multiples. -/
theorem roundDiv_of_half (pos : 0 < d) :
    roundDiv (c * (2 * d) + d) (2 * d) = if c % 2 = 0 then c else c + 1 := by
  obtain ⟨quotient, rest⟩ := quotient_eq c (show d < 2 * d by omega)
  rw [roundDiv, rest, quotient, if_neg (by omega), if_neg (by omega)]

end

/-! ## Gaps -/

theorem log2_mono {u v : Nat} (le : u ≤ v) : u.log2 ≤ v.log2 := by
  rw [Nat.log2_eq_log_two, Nat.log2_eq_log_two]
  exact Nat.log_mono_right le

theorem gap_mono {u v : Nat} (le : u ≤ v) : Format.double.gap u ≤ Format.double.gap v := by
  have high := log2_mono le
  rw [gap_double, gap_double]
  omega

/-- Less than the last bit that is set does not reach the first one. -/
theorem log2_add_of_lt {u d e : Nat} (multiple : 2 ^ e ∣ u) (pos : 0 < u) (small : d < 2 ^ e) :
    (u + d).log2 = u.log2 := by
  obtain ⟨k, rfl⟩ := multiple
  have low : 2 ^ (2 ^ e * k).log2 ≤ 2 ^ e * k := Nat.log2_self_le pos.ne'
  have high : 2 ^ e * k < 2 ^ ((2 ^ e * k).log2 + 1) := Nat.lt_log2_self
  have exponent : e ≤ (2 ^ e * k).log2 :=
    (Nat.le_log2 pos.ne').mpr (Nat.le_mul_of_pos_right _ (Nat.pos_of_mul_pos_left pos))
  rw [Nat.log2_eq_iff (by omega)]
  refine ⟨by omega, ?_⟩
  generalize (2 ^ e * k).log2 = l at high exponent
  obtain ⟨m, rfl⟩ := Nat.exists_eq_add_of_le exponent
  rw [show e + m + 1 = e + (m + 1) by omega, Nat.pow_add] at high ⊢
  have next : k + 1 ≤ 2 ^ (m + 1) := Nat.lt_of_mul_lt_mul_left high
  calc 2 ^ e * k + d < 2 ^ e * k + 2 ^ e := by omega
    _ = 2 ^ e * (k + 1) := (Nat.mul_succ _ _).symm
    _ ≤ 2 ^ e * 2 ^ (m + 1) := Nat.mul_le_mul_left _ next

/-! ## The nearest number -/

theorem nearest_eq (u : Nat) : Format.double.nearest u 1 =
    roundDiv u (2 ^ Format.double.gap u) * 2 ^ Format.double.gap u := by
  rw [Format.nearest, Nat.div_one, Nat.one_mul, Nat.pow_eq]

section

variable {u w : Nat}

theorem fits_iff_gap : Fits u ↔ 2 ^ Format.double.gap u ∣ u ∧ u.log2 < 2098 := by
  rw [fits_iff, gap_double]

/-- Fifty-two bits above a place, what fits has no bits below it. -/
theorem two_pow_dvd {e : Nat} (fits : Fits u) (large : 2 ^ 52 * 2 ^ e ≤ u) : 2 ^ e ∣ u := by
  have high : 52 + e ≤ u.log2 :=
    add_le_log2 ((Nat.le_div_iff_mul_le (Nat.two_pow_pos e)).mpr large)
  exact Nat.dvd_trans (Nat.pow_dvd_pow 2 (by omega)) (fits_iff.mp fits).1

/-- Rounding down does not pass a number that fits: it is a multiple of the gap, or below a power of
two that is one. -/
theorem le_nearest (fits : Fits w) (le : w ≤ u) : w ≤ Format.double.nearest u 1 := by
  have reached : ∀ v, 2 ^ Format.double.gap u ∣ v → v ≤ u → v ≤ Format.double.nearest u 1 := by
    rintro v ⟨k, rfl⟩ below
    rw [Nat.mul_comm] at below ⊢
    rw [nearest_eq]
    exact Nat.mul_le_mul_right _ (le_roundDiv (Nat.two_pow_pos _) below)
  by_cases zero : w = 0
  · rw [zero]
    exact Nat.zero_le _
  by_cases near : u.log2 ≤ w.log2
  · have multiple := (fits_iff_gap.mp fits).1
    rw [gap_double] at multiple
    refine reached w (Nat.dvd_trans (Nat.pow_dvd_pow 2 ?_) multiple) le
    rw [gap_double]
    omega
  · have power : w < 2 ^ u.log2 := (Nat.log2_lt zero).mp (by omega)
    have between := reached (2 ^ u.log2)
      (Nat.pow_dvd_pow 2 (by rw [gap_double]; omega)) (Nat.log2_self_le (by omega))
    omega

theorem nearest_le (fits : Fits w) (le : u ≤ w) : Format.double.nearest u 1 ≤ w := by
  obtain ⟨k, rfl⟩ := Nat.dvd_trans (Nat.pow_dvd_pow 2 (gap_mono le)) (fits_iff_gap.mp fits).1
  rw [Nat.mul_comm] at le ⊢
  rw [nearest_eq]
  exact Nat.mul_le_mul_right _ (roundDiv_le (Nat.two_pow_pos _) le)

/-- What is rounded has 53 bits at most, or is the power of two above them. -/
theorem fits_nearest (fits : Fits w) (le : u ≤ w) : Fits (Format.double.nearest u 1) := by
  have bounded := nearest_le fits le
  have range : Format.double.gap u ≤ 2045 := by
    have low := (fits_iff.mp fits).2
    have below := gap_mono le
    rw [gap_double w] at below
    omega
  rw [nearest_eq] at bounded ⊢
  generalize exponent : Format.double.gap u = e at bounded range
  have bits : roundDiv u (2 ^ e) ≤ 2 ^ 53 := by
    refine roundDiv_le (Nat.two_pow_pos e) (Nat.le_of_lt ?_)
    rw [← Nat.pow_add]
    refine Nat.lt_of_lt_of_le Nat.lt_log2_self (Nat.pow_le_pow_right (by omega) ?_)
    rw [gap_double] at exponent
    omega
  by_cases small : roundDiv u (2 ^ e) < 2 ^ 53
  · exact fits_mul_two_pow small range
  · have full : roundDiv u (2 ^ e) = 2 ^ 52 * 2 := by omega
    rw [full, Nat.mul_assoc, ← Nat.pow_succ'] at bounded ⊢
    refine fits_mul_two_pow (by omega) ?_
    rw [← Nat.pow_add] at bounded
    have positive := Nat.two_pow_pos (52 + e.succ)
    have top := (Nat.le_log2 (by omega)).mpr bounded
    have low := (fits_iff.mp fits).2
    omega

/-- Half way between two neighbours that both have 53 bits. -/
theorem nearest_of_half {c e : Nat} (low : 2 ^ 52 ≤ c) (high : c < 2 ^ 53) :
    Format.double.nearest (c * 2 ^ (e + 1) + 2 ^ e) 1 =
      (if c % 2 = 0 then c else c + 1) * 2 ^ (e + 1) := by
  have bits : (c * 2 ^ (e + 1)).log2 = 52 + (e + 1) := by
    have above := add_le_log2 (u := c * 2 ^ (e + 1)) (k := 52) (e := e + 1)
      (by rwa [Nat.mul_div_cancel _ (Nat.two_pow_pos _)])
    have below := log2_mul_two_pow_lt (e := e + 1) (by omega) high
    omega
  have gap : Format.double.gap (c * 2 ^ (e + 1) + 2 ^ e) = e + 1 := by
    have positive : 0 < c * 2 ^ (e + 1) := Nat.mul_pos (by omega) (Nat.two_pow_pos _)
    rw [gap_double, log2_add_of_lt (Nat.dvd_mul_left _ c) positive
      (Nat.pow_lt_pow_right (by omega) (by omega)), bits]
    omega
  rw [nearest_eq, gap, Nat.pow_succ', roundDiv_of_half (Nat.two_pow_pos e)]

/-- A number attracts what is less than half a gap above it. -/
theorem nearest_of_above {d : Nat} (fits : Fits u) (close : 2 * d < 2 ^ Format.double.gap u) :
    Format.double.nearest (u + d) 1 = u := by
  have multiple := (fits_iff_gap.mp fits).1
  have gap : Format.double.gap (u + d) = Format.double.gap u := by
    rcases Nat.eq_zero_or_pos u with rfl | pos
    · -- Around zero the gap is one, so nothing is that close but zero itself.
      have alone : 2 * d < 2 ^ 0 := close
      rw [show d = 0 by omega]
    · rw [gap_double, gap_double, log2_add_of_lt multiple pos (by omega)]
  rw [nearest_eq, gap]
  generalize 2 ^ Format.double.gap u = g at multiple close
  obtain ⟨k, rfl⟩ := multiple
  rw [Nat.mul_comm g k, roundDiv_of_above close]

/-- And what is less than half a gap below it, in terms of the gap there. -/
theorem nearest_of_below {v d : Nat} (fits : Fits u) (eq : v + d = u)
    (close : 2 * d < 2 ^ Format.double.gap v) : Format.double.nearest v 1 = u := by
  obtain ⟨k, multiple⟩ : 2 ^ Format.double.gap v ∣ u :=
    Nat.dvd_trans (Nat.pow_dvd_pow 2 (gap_mono (by omega))) (fits_iff_gap.mp fits).1
  rw [Nat.mul_comm] at multiple
  rw [nearest_eq, roundDiv_of_below close (eq.trans multiple), multiple]

end

end Number

open Number

theorem Binary64.fits_two_pow_mul_one : Fits (2 ^ 53 * one) := by
  obtain ⟨e, exponent, one_eq⟩ := one_eq
  rw [one_eq, ← Nat.pow_add, ← Nat.one_mul (2 ^ _)]
  exact fits_mul_two_pow (by decide) (by omega)

end LineScript
