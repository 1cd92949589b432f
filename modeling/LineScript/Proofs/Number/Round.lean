import LineScript.Number.Function
import LineScript.Proofs.Number.Nearest
import Mathlib.Tactic.FieldSimp
import Mathlib.Tactic.Linarith

/-!
# Rounding to whole numbers

A number is rounded by adding one half and taking the floor, and the sum is rounded itself before
the floor is taken.
-/

namespace LineScript.Binary64

open Number

/-! ## Units -/

/-- How many units make one half. -/
def halfUnits : Nat := Nat.pow 2 1073

/-- How far below one half the next number is. -/
def halfStep : Nat := Nat.pow 2 1020

theorem fits_halfUnits : Fits halfUnits := by decide +kernel

theorem half_eq : half = .finite false halfUnits fits_halfUnits := by decide +kernel

/-- The exponents are variables here, as in `one_eq`. -/
theorem powers_eq :
    ∃ e, e = 1020 ∧ halfStep = 2 ^ e ∧ halfUnits = 2 ^ (e + 53) ∧ one = 2 ^ (e + 54) := by
  have power : ∀ a b c, 1020 = a → 1073 = b → 1074 = c →
      halfStep = 2 ^ a ∧ halfUnits = 2 ^ b ∧ one = 2 ^ c := by
    intro a b c first second third
    delta one halfUnits halfStep
    rw [first, second, third, Nat.pow_eq, Nat.pow_eq, Nat.pow_eq]
    exact ⟨rfl, rfl, rfl⟩
  exact ⟨1020, rfl, power 1020 _ _ rfl rfl rfl⟩

attribute [local irreducible] one halfUnits halfStep

theorem one_eq_two_mul : one = 2 * halfUnits := by
  obtain ⟨e, -, -, half_eq, one_eq⟩ := powers_eq
  rw [half_eq, one_eq, ← Nat.pow_succ']

theorem halfUnits_eq : halfUnits = 2 ^ 53 * halfStep := by
  obtain ⟨e, -, step_eq, half_eq, -⟩ := powers_eq
  rw [half_eq, step_eq, ← Nat.pow_add, Nat.add_comm]

theorem halfStep_pos : 0 < halfStep := by
  obtain ⟨e, -, step_eq, -⟩ := powers_eq
  exact step_eq ▸ Nat.two_pow_pos e

theorem halfUnits_pos : 0 < halfUnits := by
  have halves := halfUnits_eq
  have step := halfStep_pos
  omega

theorem fits_mul_halfUnits {n : Nat} (small : n < 2 ^ 53) : Fits (n * halfUnits) := by
  obtain ⟨e, exponent, -, half_eq, -⟩ := powers_eq
  rw [half_eq]
  exact fits_mul_two_pow small (by omega)

/-- A power of two above one half is a whole number. -/
theorem exists_two_pow_mul_one {l : Nat} (low : halfUnits < 2 ^ l) (high : 2 ^ l < 2 ^ 52 * one) :
    ∃ m, m ≤ 51 ∧ 2 ^ l = 2 ^ m * one := by
  obtain ⟨e, -, -, half_eq, one_eq⟩ := powers_eq
  rw [half_eq, Nat.pow_lt_pow_iff_right (by decide)] at low
  rw [one_eq, ← Nat.pow_add, Nat.pow_lt_pow_iff_right (by decide)] at high
  refine ⟨l - (e + 54), by omega, ?_⟩
  rw [one_eq, ← Nat.pow_add]
  congr 1
  omega

section

variable {u : Nat}

/-- From `2 ^ 52` up there are no fractions. -/
theorem one_dvd (fits : Fits u) (large : 2 ^ 52 * one ≤ u) : one ∣ u := by
  obtain ⟨e, -, one_eq⟩ := one_eq
  rw [one_eq] at large ⊢
  exact two_pow_dvd fits large

/-- From `2 ^ 51` up there are only halves. -/
theorem halfUnits_dvd (fits : Fits u) (large : 2 ^ 52 * halfUnits ≤ u) : halfUnits ∣ u := by
  obtain ⟨e, -, -, half_eq, -⟩ := powers_eq
  rw [half_eq] at large ⊢
  exact two_pow_dvd fits large

theorem halfStep_dvd (fits : Fits u) (large : 2 ^ 52 * halfStep ≤ u) : halfStep ∣ u := by
  obtain ⟨e, -, step_eq, -⟩ := powers_eq
  rw [step_eq] at large ⊢
  exact two_pow_dvd fits large

/-- Below `2 ^ 52` there is room for halves. -/
theorem gap_dvd_halfUnits (small : u < 2 ^ 52 * one) :
    2 ^ Format.double.gap u ∣ halfUnits := by
  obtain ⟨e, -, -, half_eq, one_eq⟩ := powers_eq
  rw [half_eq, gap_double]
  apply Nat.pow_dvd_pow
  by_cases zero : u = 0
  · rw [zero, Nat.log2_zero]
    omega
  · rw [one_eq, ← Nat.pow_add] at small
    have low := (Nat.log2_lt zero).mpr small
    omega

/-- From `2 ^ 53` up only even numbers fit. -/
theorem one_lt_gap (large : 2 ^ 53 * one ≤ u) : one < 2 ^ Format.double.gap u := by
  obtain ⟨e, -, one_eq⟩ := one_eq
  rw [one_eq] at large ⊢
  rw [gap_double]
  have high : 53 + e ≤ u.log2 :=
    add_le_log2 ((Nat.le_div_iff_mul_le (Nat.two_pow_pos e)).mpr large)
  exact Nat.pow_lt_pow_right (by omega) (by omega)

/-! ## The sum with one half -/

/-- Below one half there is room for the sum, except for the last number. -/
theorem last_or_room (fits : Fits u) (below : u < halfUnits) :
    u + halfStep = halfUnits ∨ u + 2 * halfStep ≤ halfUnits := by
  have halves := halfUnits_eq
  by_cases room : u + 2 * halfStep ≤ halfUnits
  · exact .inr room
  · obtain ⟨j, rfl⟩ := exists_eq_mul_left_of_dvd (halfStep_dvd fits (by omega))
    have high : j * halfStep < 2 ^ 53 * halfStep := by omega
    have low : 2 ^ 53 * halfStep < (j + 2) * halfStep := by
      rw [Nat.add_mul]
      omega
    have last : j + 1 = 2 ^ 53 := by
      have := Nat.lt_of_mul_lt_mul_right high
      have := Nat.lt_of_mul_lt_mul_right low
      omega
    left
    rw [halves, ← last, Nat.succ_mul]

theorem nearest_add_half_of_room (room : u + 2 * halfStep ≤ halfUnits) :
    Format.double.nearest (u + halfUnits) 1 < one := by
  have eq := one_eq_two_mul
  have halves := halfUnits_eq
  have step := halfStep_pos
  have last : Fits ((2 ^ 53 - 1) * (2 * halfStep)) := by
    obtain ⟨e, exponent, step_eq, -⟩ := powers_eq
    rw [step_eq, ← Nat.pow_succ']
    exact fits_mul_two_pow (by decide) (by omega)
  have bound := nearest_le last (u := u + halfUnits) (by omega)
  omega

/-- The last number below one half goes up to one: the sum is half way between one and the number
before. -/
theorem nearest_add_half_of_last (last : u + halfStep = halfUnits) :
    Format.double.nearest (u + halfUnits) 1 = one := by
  have halves := halfUnits_eq
  have sum : u + halfUnits = (2 ^ 53 - 1) * (2 * halfStep) + halfStep := by omega
  have eq : one = 2 ^ 53 * (2 * halfStep) := by
    rw [one_eq_two_mul]
    omega
  obtain ⟨e, -, step_eq, -⟩ := powers_eq
  rw [step_eq, ← Nat.pow_succ'] at sum eq
  rw [sum, nearest_of_half (by decide) (by decide), eq]
  exact congrArg (· * 2 ^ (e + 1)) (by decide)

/-- From `2 ^ 51` up to `2 ^ 52` the sum is exact. -/
theorem fits_add_half (fits : Fits u) (low : 2 ^ 51 * one ≤ u) (high : u < 2 ^ 52 * one) :
    Fits (u + halfUnits) := by
  have eq := one_eq_two_mul
  obtain ⟨j, rfl⟩ := exists_eq_mul_left_of_dvd (halfUnits_dvd fits (by omega))
  have small : j < 2 ^ 53 := by
    have below : j * halfUnits < 2 ^ 53 * halfUnits := by omega
    exact Nat.lt_of_mul_lt_mul_right below
  rw [← Nat.succ_mul]
  by_cases last : j + 1 < 2 ^ 53
  · exact fits_mul_halfUnits last
  · have next : j.succ = 2 ^ 52 * 2 := by omega
    rw [next, Nat.mul_assoc, ← eq]
    exact fits_mul_one (by decide)

/-- From one half up to `2 ^ 52` the sum is exact, or it is rounded within the half above a power
of two. -/
theorem nearest_add_half_div (fits : Fits u) (low : halfUnits ≤ u) (high : u < 2 ^ 52 * one) :
    Format.double.nearest (u + halfUnits) 1 / one = (u + halfUnits) / one := by
  have eq := one_eq_two_mul
  have positive := halfUnits_pos
  by_cases halves : 2 ^ 51 * one ≤ u
  · rw [nearest_of_fits (fits_add_half fits halves high)]
  by_cases level : (u + halfUnits).log2 = u.log2
  · have exact : Fits (u + halfUnits) := by
      rw [fits_iff_gap, gap_double, level, ← gap_double]
      have range := fits_iff_gap.mp fits
      exact ⟨Nat.dvd_add range.1 (gap_dvd_halfUnits high), range.2⟩
    rw [nearest_of_fits exact]
  · -- The sum has reached the next power of two, and is less than one half above it.
    have reached : 2 ^ (u + halfUnits).log2 ≤ u + halfUnits := Nat.log2_self_le (by omega)
    have before : u < 2 ^ (u + halfUnits).log2 := by
      have grown := log2_mono (Nat.le_add_right u halfUnits)
      exact (Nat.log2_lt (by omega)).mp (by omega)
    obtain ⟨m, small, power⟩ := exists_two_pow_mul_one (Nat.lt_of_le_of_lt low before) (by omega)
    rw [power] at reached before
    have narrow : 2 ^ m ≤ 2 ^ 51 := Nat.pow_le_pow_right (by decide) small
    have above : Fits (2 ^ m * one + halfUnits) := by
      rw [eq, ← Nat.mul_assoc, ← Nat.succ_mul]
      exact fits_mul_halfUnits (by omega)
    have lower := le_nearest (fits_mul_one (by omega)) reached
    have upper := nearest_le above (u := u + halfUnits) (by omega)
    rw [Nat.div_eq_of_lt_le lower (by rw [Nat.add_mul]; omega),
      Nat.div_eq_of_lt_le reached (by rw [Nat.add_mul]; omega)]

/-- From `2 ^ 52` up to `2 ^ 53` the sum is half way between whole numbers. -/
theorem nearest_mul_one_add_half {k : Nat} (low : 2 ^ 52 ≤ k) (high : k < 2 ^ 53) :
    Format.double.nearest (k * one + halfUnits) 1 = (if k % 2 = 0 then k else k + 1) * one := by
  obtain ⟨e, -, -, half_eq, one_eq⟩ := powers_eq
  rw [half_eq, one_eq]
  exact nearest_of_half low high

/-- From `2 ^ 53` up one half does not count. -/
theorem nearest_add_half_of_large (fits : Fits u) (large : 2 ^ 53 * one ≤ u) :
    Format.double.nearest (u + halfUnits) 1 = u := by
  refine nearest_of_above fits ?_
  rw [← one_eq_two_mul]
  exact one_lt_gap large

/-! ## The difference from one half -/

theorem fits_sub_half (fits : Fits u) (low : halfUnits ≤ u) (high : u ≤ 2 ^ 52 * one) :
    Fits (u - halfUnits) := by
  have eq := one_eq_two_mul
  by_cases last : u = 2 ^ 52 * one
  · have odd : u - halfUnits = (2 ^ 53 - 1) * halfUnits := by omega
    rw [odd]
    exact fits_mul_halfUnits (by decide)
  · have shift := Nat.pow_dvd_pow 2 (gap_mono (Nat.sub_le u halfUnits))
    have whole := Nat.dvd_sub (fits_iff_gap.mp fits).1 (gap_dvd_halfUnits (u := u) (by omega))
    rw [fits_iff_gap]
    exact ⟨Nat.dvd_trans shift whole,
      Nat.lt_of_le_of_lt (log2_mono (Nat.sub_le u halfUnits)) (fits_iff_gap.mp fits).2⟩

/-- Above `2 ^ 53` one half does not count. -/
theorem nearest_sub_half_of_large (fits : Fits u) (large : 2 ^ 53 * one < u) :
    Format.double.nearest (u - halfUnits) 1 = u := by
  have eq := one_eq_two_mul
  obtain ⟨k, rfl⟩ := exists_eq_mul_left_of_dvd (one_dvd fits (by omega))
  have next : (2 ^ 53 + 1) * one ≤ k * one :=
    Nat.mul_le_mul_right one (Nat.lt_of_mul_lt_mul_right large)
  have below : 2 ^ 53 * one ≤ k * one - halfUnits := by omega
  refine nearest_of_below fits (d := halfUnits) (by omega) ?_
  rw [← eq]
  exact one_lt_gap below

end

/-! ## Whole numbers of units -/

/-- The sum with one half, in units, as it is rounded. -/
def sumUnits (s : Int) : Int :=
  (s + halfUnits).sign * Format.double.nearest (s + halfUnits).natAbs 1

/-- The numbers of units for which the sum is rounded too far. -/
def OvershootsUnits (s : Int) : Prop :=
  s + halfStep = halfUnits ∨
    ∃ k : Int, k % 2 = 1 ∧ 2 ^ 52 < k.natAbs ∧ k.natAbs < 2 ^ 53 ∧ s = k * one

theorem OvershootsUnits.bounds {s : Int} (h : OvershootsUnits s) :
    s + halfStep = halfUnits ∨ 2 ^ 52 * one < s.natAbs ∧ s.natAbs < 2 ^ 53 * one := by
  rcases h with last | ⟨k, -, low, high, rfl⟩
  · exact .inl last
  · rw [Int.natAbs_mul, Int.natAbs_natCast]
    exact .inr ⟨Nat.mul_lt_mul_of_pos_right low one_pos, Nat.mul_lt_mul_of_pos_right high one_pos⟩

theorem mul_one_ediv (k : Int) : k * one / one = k :=
  Int.mul_ediv_cancel k (Int.natCast_ne_zero.mpr one_pos.ne')

theorem mul_one_add_half_ediv (k : Int) : (k * one + halfUnits) / one = k := by
  have eq := one_eq_two_mul
  have positive := halfUnits_pos
  rw [Int.add_comm, Int.add_mul_ediv_right _ _ (by omega),
    Int.ediv_eq_zero_of_lt (by omega) (by omega), Int.zero_add]

theorem overshootsUnits_mul_one {k : Int} :
    OvershootsUnits (k * one) ↔ k % 2 = 1 ∧ 2 ^ 52 < k.natAbs ∧ k.natAbs < 2 ^ 53 := by
  have eq := one_eq_two_mul
  have halves := halfUnits_eq
  have step := halfStep_pos
  constructor
  · rintro (last | ⟨m, odd, low, high, same⟩)
    · -- The number below one half is not whole.
      have whole := mul_one_ediv k
      rw [show k * one = halfUnits - halfStep by omega,
        Int.ediv_eq_zero_of_lt (by omega) (by omega)] at whole
      rw [← whole, Int.zero_mul] at last
      omega
    · have := congrArg (· / (one : Int)) same
      simp only [mul_one_ediv] at this
      subst this
      exact ⟨odd, low, high⟩
  · rintro ⟨odd, low, high⟩
    exact .inr ⟨k, odd, low, high, rfl⟩

/-- The floor of the rounded sum is that of the exact one, or the next whole number. -/
def Lands (s : Int) : Prop :=
  OvershootsUnits s ∧ sumUnits s / one = (s + halfUnits) / one + 1 ∨
    ¬ OvershootsUnits s ∧ sumUnits s / one = (s + halfUnits) / one

section

variable {u : Nat}

theorem sumUnits_natCast (u : Nat) :
    sumUnits u = Format.double.nearest (u + halfUnits) 1 := by
  have positive := halfUnits_pos
  rw [sumUnits, Int.sign_eq_one_of_pos (by omega), Int.one_mul]
  rfl

theorem sumUnits_neg_of_lt (large : halfUnits < u) :
    sumUnits (-u) = -Format.double.nearest (u - halfUnits) 1 := by
  rw [sumUnits, Int.sign_eq_neg_one_of_neg (by omega),
    show (-(u : Int) + halfUnits).natAbs = u - halfUnits by omega, Int.neg_one_mul]

theorem lands_of_lt_half (fits : Fits u) (below : u < halfUnits) : Lands u := by
  have eq := one_eq_two_mul
  have step := halfStep_pos
  have sum : ((u : Int) + halfUnits) / one = 0 := Int.ediv_eq_zero_of_lt (by omega) (by omega)
  rw [Lands, sumUnits_natCast, sum]
  rcases last_or_room fits below with last | room
  · refine .inl ⟨.inl (by omega), ?_⟩
    rw [nearest_add_half_of_last last]
    exact Int.ediv_self (by omega)
  · have bound := nearest_add_half_of_room room
    refine .inr ⟨fun exceeds => ?_, Int.ediv_eq_zero_of_lt (by omega) (by omega)⟩
    have bounds := exceeds.bounds
    omega

theorem lands_of_small (fits : Fits u) (low : halfUnits ≤ u) (high : u < 2 ^ 52 * one) :
    Lands u := by
  have step := halfStep_pos
  refine .inr ⟨fun exceeds => ?_, ?_⟩
  · have bounds := exceeds.bounds
    omega
  · rw [sumUnits_natCast]
    exact_mod_cast nearest_add_half_div fits low high

theorem lands_of_whole {k : Nat} (low : 2 ^ 52 ≤ k) (high : k < 2 ^ 53) :
    Lands ((k * one : Nat) : Int) := by
  rw [Lands, sumUnits_natCast, nearest_mul_one_add_half low high]
  push_cast
  rw [overshootsUnits_mul_one, mul_one_ediv, mul_one_add_half_ediv]
  split_ifs <;> omega

theorem lands_of_large (fits : Fits u) (large : 2 ^ 53 * one ≤ u) : Lands u := by
  obtain ⟨k, rfl⟩ := exists_eq_mul_left_of_dvd (one_dvd fits (by omega))
  have wide : 2 ^ 53 ≤ k := Nat.le_of_mul_le_mul_right large one_pos
  rw [Lands, sumUnits_natCast, nearest_add_half_of_large fits large]
  push_cast
  rw [overshootsUnits_mul_one, mul_one_ediv, mul_one_add_half_ediv]
  omega

theorem lands_neg_of_le_half (small : u ≤ halfUnits) : Lands (-u) := by
  have eq := one_eq_two_mul
  have halves := halfUnits_eq
  have step := halfStep_pos
  have sum : (-(u : Int) + halfUnits) / one = 0 := Int.ediv_eq_zero_of_lt (by omega) (by omega)
  refine .inr ⟨fun exceeds => ?_, ?_⟩
  · have bounds := exceeds.bounds
    omega
  · rw [sum, sumUnits, show (-(u : Int) + halfUnits).natAbs = halfUnits - u by omega]
    rcases Nat.lt_or_eq_of_le small with less | rfl
    · have bound := nearest_le fits_halfUnits (Nat.sub_le halfUnits u)
      rw [Int.sign_eq_one_of_pos (by omega), Int.one_mul]
      exact Int.ediv_eq_zero_of_lt (by omega) (by omega)
    · rw [Int.add_left_neg, Int.sign_zero, Int.zero_mul, Int.zero_ediv]

theorem lands_neg_of_small (fits : Fits u) (low : halfUnits < u) (high : u ≤ 2 ^ 52 * one) :
    Lands (-u) := by
  have halves := halfUnits_eq
  have step := halfStep_pos
  refine .inr ⟨fun exceeds => ?_, ?_⟩
  · have bounds := exceeds.bounds
    omega
  · rw [sumUnits_neg_of_lt low, nearest_of_fits (fits_sub_half fits low.le high)]
    congr 1
    omega

theorem lands_neg_of_whole {k : Nat} (low : 2 ^ 52 ≤ k) (high : k < 2 ^ 53) :
    Lands (-((k + 1 : Nat) * one : Nat)) := by
  have eq := one_eq_two_mul
  have positive := halfUnits_pos
  have parts : (k + 1) * one - halfUnits = k * one + halfUnits := by
    rw [Nat.succ_mul]
    omega
  have large : halfUnits < (k + 1) * one := by
    rw [Nat.succ_mul]
    omega
  rw [Lands, sumUnits_neg_of_lt large, parts, nearest_mul_one_add_half low high]
  push_cast
  rw [← Int.neg_mul, ← Int.neg_mul, overshootsUnits_mul_one, mul_one_ediv, mul_one_add_half_ediv]
  split_ifs <;> omega

theorem lands_neg_of_large (fits : Fits u) (large : 2 ^ 53 * one < u) : Lands (-u) := by
  have eq := one_eq_two_mul
  obtain ⟨k, rfl⟩ := exists_eq_mul_left_of_dvd (one_dvd fits (by omega))
  have wide : 2 ^ 53 < k := Nat.lt_of_mul_lt_mul_right large
  rw [Lands, sumUnits_neg_of_lt (by omega), nearest_sub_half_of_large fits large]
  push_cast
  rw [← Int.neg_mul, overshootsUnits_mul_one, mul_one_ediv, mul_one_add_half_ediv]
  omega

end

/-- Numbers are taken apart by size: below one half, below `2 ^ 52`, whole numbers that leave no
room for halves, and those that leave no room for odd numbers. -/
theorem lands {s : Int} (fits : Fits s.natAbs) : Lands s := by
  obtain ⟨u, rfl | rfl⟩ := s.eq_nat_or_neg
  · rw [Int.natAbs_natCast] at fits
    by_cases below : u < halfUnits
    · exact lands_of_lt_half fits below
    by_cases small : u < 2 ^ 52 * one
    · exact lands_of_small fits (by omega) small
    by_cases large : 2 ^ 53 * one ≤ u
    · exact lands_of_large fits large
    obtain ⟨k, rfl⟩ := exists_eq_mul_left_of_dvd (one_dvd fits (by omega))
    exact lands_of_whole (Nat.le_of_mul_le_mul_right (by omega) one_pos)
      (Nat.lt_of_mul_lt_mul_right (by omega : k * one < 2 ^ 53 * one))
  · rw [Int.natAbs_neg, Int.natAbs_natCast] at fits
    by_cases below : u ≤ halfUnits
    · exact lands_neg_of_le_half below
    by_cases small : u ≤ 2 ^ 52 * one
    · exact lands_neg_of_small fits (by omega) small
    by_cases large : 2 ^ 53 * one < u
    · exact lands_neg_of_large fits large
    obtain ⟨k, rfl⟩ := exists_eq_mul_left_of_dvd (one_dvd fits (by omega))
    have low : 2 ^ 52 < k := Nat.lt_of_mul_lt_mul_right (by omega : 2 ^ 52 * one < k * one)
    have high : k ≤ 2 ^ 53 := Nat.le_of_mul_le_mul_right (by omega) one_pos
    obtain ⟨j, rfl⟩ := Nat.exists_eq_succ_of_ne_zero (show k ≠ 0 by omega)
    exact lands_neg_of_whole (by omega) (by omega)

/-! ## Values -/

theorem value?_finite {negative : Bool} {u : Nat} (fits : Fits u) :
    (finite negative u fits).value? = some (((if negative then -u else u : Int) : ℚ) / one) :=
  rfl

/-- The rounded sum is in range. -/
theorem fits_nearest_add_half {s : Int} (fits : Fits s.natAbs) :
    Fits (Format.double.nearest (s + halfUnits).natAbs 1) := by
  have eq := one_eq_two_mul
  have positive := halfUnits_pos
  obtain ⟨u, rfl | rfl⟩ := s.eq_nat_or_neg
  · rw [Int.natAbs_natCast] at fits
    by_cases large : 2 ^ 53 * one ≤ u
    · rw [show ((u : Int) + halfUnits).natAbs = u + halfUnits by omega,
        nearest_add_half_of_large fits large]
      exact fits
    · refine fits_nearest fits_two_pow_mul_one ?_
      by_cases small : u < 2 ^ 52 * one
      · omega
      · obtain ⟨k, rfl⟩ := exists_eq_mul_left_of_dvd (one_dvd fits (by omega))
        have room : (k + 1) * one ≤ 2 ^ 53 * one :=
          Nat.mul_le_mul_right one (Nat.lt_of_mul_lt_mul_right (by omega : k * one < 2 ^ 53 * one))
        rw [Nat.succ_mul] at room
        omega
  · rw [Int.natAbs_neg, Int.natAbs_natCast] at fits
    by_cases below : u ≤ halfUnits
    · exact fits_nearest fits_halfUnits (by omega)
    · exact fits_nearest fits (by omega)

theorem value?_ofSignedUnits (zeroNegative : Bool) {s : Int}
    (fits : Fits (Format.double.nearest s.natAbs 1)) :
    (ofSignedUnits zeroNegative s).value? =
      some (((s.sign * Format.double.nearest s.natAbs 1 : Int) : ℚ) / one) := by
  rw [ofSignedUnits, ofUnitRatio, ofUnits_of_fits fits]
  rcases Int.lt_trichotomy s 0 with below | rfl | above
  · rw [if_neg below.ne, value?_finite, Int.sign_eq_neg_one_of_neg below, decide_eq_true below,
      if_pos rfl, Int.neg_one_mul]
  · rw [if_pos rfl, zero, value?_finite, Int.sign_zero, Int.zero_mul]
    cases zeroNegative <;> rfl
  · rw [if_neg above.ne', value?_finite, Int.sign_eq_one_of_pos above,
      decide_eq_false (not_lt.mpr above.le), if_neg Bool.false_ne_true, Int.one_mul]

theorem value?_ofWhole {negative : Bool} {n : Nat} (fits : Fits (n * one)) :
    (ofWhole negative n).value? = some ((if negative then -n else n : Int) : ℚ) := by
  have pos : (one : ℚ) ≠ 0 := Nat.cast_ne_zero.mpr one_pos.ne'
  rw [ofWhole, ofUnits_of_fits fits, value?_finite, Option.some.injEq, div_eq_iff pos]
  cases negative <;> push_cast <;> simp

theorem value?_floor {x : Binary64} {q : ℚ} (value : x.value? = some q) :
    x.floor.value? = some ((⌊q⌋ : Int) : ℚ) := by
  cases x with
  | nan => cases value
  | infinite n => cases value
  | finite negative u fits =>
    rw [value?_finite, Option.some.injEq] at value
    rw [← value, Rat.floor_intCast_div_natCast]
    cases negative with
    | false =>
      have floor : (finite false u fits).floor = ofWhole false (u / one) := by simp [floor]
      rw [floor, value?_ofWhole (fits_drop fits), if_neg Bool.false_ne_true,
        if_neg Bool.false_ne_true, Int.natCast_ediv]
    | true =>
      rw [if_pos rfl, Int.neg_ediv, Int.sign_eq_one_of_pos (Int.natCast_pos.mpr one_pos)]
      simp only [Int.natCast_dvd_natCast]
      by_cases whole : one ∣ u
      · have floor : (finite true u fits).floor = ofWhole true (u / one) := by
          simp [floor, Nat.mod_eq_zero_of_dvd whole]
        rw [floor, value?_ofWhole (fits_drop fits), if_pos whole, if_pos rfl, Int.natCast_ediv,
          Int.sub_zero]
      · have floor : (finite true u fits).floor = ofWhole true (u / one + 1) := by
          simp [floor, mt Nat.dvd_of_mod_eq_zero whole]
        have small : u / one < 2 ^ 52 := by
          rw [Nat.div_lt_iff_lt_mul one_pos]
          exact Nat.lt_of_not_le fun large => whole (one_dvd fits large)
        rw [floor, value?_ofWhole (fits_mul_one (by omega)), if_neg whole, if_pos rfl,
          Nat.cast_succ, Int.natCast_ediv, Int.neg_add, Int.sub_eq_add_neg]

/-- The rounded sum, and its floor. -/
theorem value?_round {negative : Bool} {u : Nat} (fits : Fits u) :
    (finite negative u fits).round.value? =
      some ((sumUnits (if negative then -u else u) / one : Int) : ℚ) := by
  have range : Fits (if negative then -(u : Int) else u).natAbs := by
    cases negative <;> simpa using fits
  have sum := value?_ofSignedUnits (negative && false) (fits_nearest_add_half range)
  have added : (finite negative u fits).add half =
      ofSignedUnits (negative && false) ((if negative then -(u : Int) else u) + halfUnits) := by
    rw [half_eq]
    rfl
  rw [← added] at sum
  rw [round, value?_floor sum, Rat.floor_intCast_div_natCast]
  rfl

/-- The numbers that come out one too large: the one just below one half, and the odd whole numbers
from `2 ^ 52` up to `2 ^ 53`, with either sign. -/
def Overshoots (q : ℚ) : Prop :=
  q = 1 / 2 - 1 / 2 ^ 54 ∨ ∃ k : ℤ, Odd k ∧ 2 ^ 52 < |k| ∧ |k| < 2 ^ 53 ∧ q = k

theorem overshoots_div_one {s : Int} : Overshoots ((s : ℚ) / one) ↔ OvershootsUnits s := by
  have pos : (one : ℚ) ≠ 0 := Nat.cast_ne_zero.mpr one_pos.ne'
  refine or_congr ?_ (exists_congr fun k => ?_)
  · have halves : (halfUnits : ℚ) = 2 ^ 53 * halfStep := by exact_mod_cast halfUnits_eq
    have whole : (one : ℚ) = 2 * halfUnits := by exact_mod_cast one_eq_two_mul
    have last : (1 / 2 - 1 / 2 ^ 54 : ℚ) * one = halfUnits - halfStep := by
      rw [whole, halves]
      ring
    rw [div_eq_iff pos, last, eq_sub_iff_add_eq]
    exact_mod_cast Iff.rfl
  · rw [Int.odd_iff, Int.abs_eq_natAbs, div_eq_iff pos]
    exact_mod_cast Iff.rfl

/-- The whole number is nearer to the quotient than any other, or as near as a smaller one. -/
def IsNearest (z : ℤ) (q : ℚ) : Prop :=
  ∀ w : ℤ, |q - z| ≤ |q - w| ∧ (|q - w| = |q - z| → w ≤ z)

theorem isNearest_iff {z : ℤ} {q : ℚ} : IsNearest z q ↔ ⌊q + 1 / 2⌋ = z := by
  rw [Int.floor_eq_iff]
  constructor
  · -- The neighbours bound the distance, and the upper one is not as near.
    intro nearest
    have below := (nearest (z - 1)).1
    have above := (nearest (z + 1)).1
    have apart : |q - (z + 1 : ℤ)| ≠ |q - z| := fun same => by
      have le := (nearest (z + 1)).2 same
      omega
    push_cast at below above apart
    have less := lt_of_le_of_ne above apart.symm
    rcases abs_cases (q - z) with here | here <;>
      rcases abs_cases (q - (z - 1)) with down | down <;>
      rcases abs_cases (q - (z + 1)) with up | up <;>
      constructor <;> linarith
  · rintro ⟨low, high⟩ w
    have near : |q - z| ≤ 1 / 2 := abs_le.mpr ⟨by linarith, by linarith⟩
    rcases lt_trichotomy w z with down | rfl | up
    · have step : (w : ℚ) ≤ z - 1 := by exact_mod_cast Int.le_sub_one_of_lt down
      have far : 1 / 2 ≤ q - w := by linarith
      exact ⟨near.trans (far.trans (le_abs_self _)), fun _ => down.le⟩
    · exact ⟨le_rfl, fun _ => le_rfl⟩
    · have step : (z : ℚ) + 1 ≤ w := by exact_mod_cast up
      have far : 1 / 2 < |q - w| := lt_of_lt_of_le (by linarith) (neg_le_abs _)
      exact ⟨near.trans far.le, fun same => absurd (same ▸ near) (not_le.mpr far)⟩

/-- The function `round` of a finite number is the nearest whole number, the larger one from half
way, exactly if the number is not among those that overshoot. These come out one larger. -/
theorem round_is_nearest_unless_overshooting {x : Binary64} {q : ℚ} (value : x.value? = some q) :
    ∃ f, ∃ z : ℤ, MathFunction.ofName? "round" = some f ∧ (f.apply x).value? = some (z : ℚ) ∧
      (IsNearest z q ↔ ¬ Overshoots q) ∧ (Overshoots q → IsNearest (z - 1) q) := by
  cases x with
  | nan => cases value
  | infinite n => cases value
  | finite negative u fits =>
    rw [value?_finite, Option.some.injEq] at value
    generalize units : (if negative then -u else u : Int) = s at value
    have range : Fits s.natAbs := by
      rw [← units]
      cases negative <;> simpa using fits
    refine ⟨.round, sumUnits s / one, rfl, ?_, ?_⟩
    · rw [← units]
      exact value?_round fits
    have exact_sum : ⌊q + 1 / 2⌋ = (s + halfUnits) / one := by
      have whole : (one : ℚ) = 2 * halfUnits := by exact_mod_cast one_eq_two_mul
      have pos : (halfUnits : ℚ) ≠ 0 := Nat.cast_ne_zero.mpr halfUnits_pos.ne'
      rw [← Rat.floor_intCast_div_natCast, ← value, whole]
      congr 1
      push_cast
      field_simp
    rw [isNearest_iff, isNearest_iff, exact_sum, ← value, overshoots_div_one]
    rcases lands range with ⟨exceeds, landed⟩ | ⟨inside, landed⟩
    · simp [exceeds, landed]
    · simp [inside, landed]

/-- A half below zero goes up. -/
theorem round_minus_five_halves :
    (ofRatio true 5 2).value? = some (-5 / 2) ∧
    ∃ f, ∃ z : ℤ, MathFunction.ofName? "round" = some f ∧
      (f.apply (ofRatio true 5 2)).value? = some (z : ℚ) ∧
      (IsNearest z (-5 / 2) ↔ ¬ Overshoots (-5 / 2)) ∧
      (Overshoots (-5 / 2) → IsNearest (z - 1) (-5 / 2)) := by
  have value : (ofRatio true 5 2).value? = some (-5 / 2) := by decide +kernel
  exact ⟨value, round_is_nearest_unless_overshooting value⟩

/-- An odd whole number above `2 ^ 52` goes up to the next. -/
theorem odd_whole_number_goes_up :
    (ofNat 4503599627370497).value? = some 4503599627370497 ∧
    MathFunction.ofName? "round" = some .round ∧
    (MathFunction.round.apply (ofNat 4503599627370497)).value? = some 4503599627370498 ∧
    IsNearest 4503599627370497 4503599627370497 ∧
      ¬ IsNearest 4503599627370498 4503599627370497 := by
  refine ⟨by decide +kernel, rfl, by decide +kernel, ?_, ?_⟩
  · rw [isNearest_iff]
    norm_num
  · rw [isNearest_iff]
    norm_num

end LineScript.Binary64
