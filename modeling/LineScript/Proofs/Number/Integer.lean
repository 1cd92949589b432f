import LineScript.Number.Literal
import LineScript.Proofs.Number.Nearest
import LineScript.Proofs.Text.Part
import Mathlib.Data.List.TakeWhile
import Mathlib.Tactic.IntervalCases

/-!
# Whole numbers as they are written

The digits of a whole number are read as the nearest number of the format. One of at most 53 bits
is that number itself; from `2 ^ 53` up what is read is no smaller than `2 ^ 53`, however it is
rounded. So a text with a whole number is taken for that number exactly if it is small enough
(`integerOfText?_toString`).
-/

namespace LineScript.Number

/-! ## Digits -/

/-- The ten digits. -/
def digits : List Char :=
  ['0', '1', '2', '3', '4', '5', '6', '7', '8', '9']

theorem mem_digits_of_isDigit {c : Char} (digit : isDigit c = true) : c ∈ digits := by
  have range : 48 ≤ c.toNat ∧ c.toNat ≤ 57 := by
    simpa [isDigit, Char.le_def, UInt32.le_iff_toNat_le] using digit
  obtain ⟨low, high⟩ := range
  rw [← Char.ofNat_toNat c]
  interval_cases c.toNat <;> decide

theorem not_isBlank_of_isDigit {c : Char} (digit : isDigit c = true) :
    Text.isBlank c = false := by
  have plain : digits.all (!Text.isBlank ·) = true := by decide
  simpa using List.all_eq_true.mp plain c (mem_digits_of_isDigit digit)

section

variable {n : Nat} {c : Char}

theorem isDigit_of_mem (mem : c ∈ Nat.toDigits 10 n) : isDigit c = true := by
  have digit := Nat.isDigit_of_mem_toDigits (by decide) (by decide) mem
  simpa [isDigit, Char.isDigit, Char.le_def, and_comm] using digit

theorem notMem_toDigits (other : isDigit c = false) : c ∉ Nat.toDigits 10 n := by
  intro mem
  rw [isDigit_of_mem mem] at other
  cases other

theorem digitsValue_toDigits (n : Nat) : digitsValue (Nat.toDigits 10 n) = n := by
  rw [digitsValue_eq_foldl]
  exact Nat.ofDigitChars_ten_toDigits

/-- Zeros in front do not count. -/
theorem digitsValue_dropWhile (cs : List Char) :
    digitsValue (cs.dropWhile (· == '0')) = digitsValue cs := by
  induction cs with
  | nil => rfl
  | cons c rest ih =>
    by_cases zero : c = '0'
    · rw [List.dropWhile_cons_of_pos (by simp [zero]), ih, zero, digitsValue_eq_foldl,
        digitsValue_eq_foldl]
      rfl
    · rw [List.dropWhile_cons_of_neg (by simp [zero])]

theorem length_dropWhile_le (small : n ≤ largestExact) :
    ((Nat.toDigits 10 n).dropWhile (· == '0')).length ≤ 16 := by
  have few : n < 10 ^ 16 := Nat.lt_of_le_of_lt small (by decide)
  exact Nat.le_trans (List.dropWhile_sublist _).length_le
    ((Nat.length_toDigits_le_iff (by decide) (by decide)).mpr few)

end

/-! ## Reading digits -/

section

variable {cs : List Char} (run : ∀ c ∈ cs, isDigit c = true)
include run

theorem readSign_of_digits : readSign cs = (false, cs) := by
  cases cs with
  | nil => rfl
  | cons c rest =>
    have digit := run c (List.mem_cons_self ..)
    unfold readSign
    split
    case h_1 eq =>
      cases eq
      cases digit
    case h_2 eq =>
      cases eq
      cases digit
    case h_3 => rfl

theorem readWord?_of_digits (negative : Bool) (filled : cs ≠ []) :
    readWord? negative cs = none := by
  obtain ⟨c, rest, rfl⟩ := List.exists_cons_of_ne_nil filled
  have plain : digits.all (fun c => c.toLower ≠ 'i' ∧ c.toLower ≠ 'n') = true := by decide
  have digit := mem_digits_of_isDigit (run c (List.mem_cons_self ..))
  obtain ⟨noI, noN⟩ := of_decide_eq_true (List.all_eq_true.mp plain c digit)
  have other (word : String) (first : word.toList.head? = some 'i' ∨ word.toList.head? = some 'n') :
      String.ofList ((c :: rest).map Char.toLower) ≠ word := by
    rintro rfl
    simp [noI, noN] at first
  simp only [readWord?]
  rw [if_neg (not_or.mpr ⟨other "inf" (.inl rfl), other "infinity" (.inl rfl)⟩),
    if_neg (other "nan" (.inr rfl))]

theorem readMagnitude?_of_digits (negative : Bool) (filled : cs ≠ []) :
    readMagnitude? negative cs = some (scale negative cs 0) := by
  have whole : spanDigits cs = (cs, []) := by
    rw [spanDigits, List.span_eq_takeWhile_dropWhile, List.takeWhile_eq_self_iff.mpr run,
      List.dropWhile_eq_nil_iff.mpr run]
  simp [readMagnitude?, whole, filled, readExponent?]

end

/-- Digits with a minus sign in front of them, or none. -/
theorem ofText?_digits (negative : Bool) {cs : List Char} (run : ∀ c ∈ cs, isDigit c = true)
    (filled : cs ≠ []) :
    ofText? (String.ofList (if negative then '-' :: cs else cs)) =
      (some (scale negative cs 0)).filter Binary64.isFinite := by
  have plain : ∀ c ∈ (if negative then '-' :: cs else cs), Text.isBlank c = false := by
    intro c mem
    cases negative with
    | false => exact not_isBlank_of_isDigit (run c mem)
    | true =>
      rcases List.mem_cons.mp mem with rfl | digit
      · decide
      · exact not_isBlank_of_isDigit (run c digit)
  have sign : readSign (if negative then '-' :: cs else cs) = (negative, cs) := by
    cases negative with
    | false => exact readSign_of_digits run
    | true => rfl
  rw [ofText?, Text.trim_of_free (by simpa using plain), Binary64.ofText?, String.toList_ofList,
    sign]
  simp only [readWord?_of_digits run negative filled, readMagnitude?_of_digits run negative filled]

end LineScript.Number

namespace LineScript.Binary64

open Number

attribute [local irreducible] one

/-! ## Whole numbers -/

/-- The digits of a whole number are read as the nearest number, or as an infinite one if there are
too many of them. -/
theorem scale_toDigits (negative : Bool) (n : Nat) :
    scale negative (Nat.toDigits 10 n) 0 = ofUnits negative (Format.double.nearest (n * one) 1) ∨
      largestExact < n ∧ scale negative (Nat.toDigits 10 n) 0 = .infinite negative := by
  have value := (digitsValue_dropWhile (Nat.toDigits 10 n)).trans (digitsValue_toDigits n)
  have few := length_dropWhile_le (n := n)
  unfold scale
  generalize (Nat.toDigits 10 n).dropWhile (· == '0') = cs at value few
  dsimp only
  split_ifs with empty long short level
  · left
    rw [List.isEmpty_iff] at empty
    rw [empty] at value
    rw [← value, show digitsValue [] = 0 from rfl, Nat.zero_mul, nearest_of_fits (by decide),
      ofUnits_of_fits (by decide), zero]
  · right
    exact ⟨by omega, rfl⟩
  · omega
  · left
    rw [value, Int.toNat_zero, Nat.pow_eq, Nat.pow_zero, Nat.mul_one]
    rfl
  · exact absurd le_rfl level

/-- The whole number that a script sees, if it is finite and exact. -/
def exactInt? (x : Binary64) : Option Int :=
  ((some x).filter isFinite).bind fun x =>
    if x.isWhole && x.toInt.natAbs ≤ largestExact then some x.toInt else none

theorem natAbs_toInt_finite {negative : Bool} {u : Nat} (fits : Fits u) :
    (finite negative u fits).toInt.natAbs = u / one := by
  cases negative <;> simp [toInt, -Int.natCast_ediv]

/-- Up to 53 bits a whole number is exact, and beyond them it stays too large. -/
theorem exactInt?_ofUnits_nearest (negative : Bool) (n : Nat) :
    exactInt? (ofUnits negative (Format.double.nearest (n * one) 1)) =
      if n ≤ largestExact then some (if negative then -n else n : Int) else none := by
  by_cases small : n ≤ largestExact
  · have fits : Fits (n * one) := fits_mul_one (Nat.lt_of_le_of_lt small (by decide))
    have whole : (finite negative (n * one) fits).isWhole = true := by simp [isWhole]
    have value : (finite negative (n * one) fits).toInt = (if negative then -n else n : Int) := by
      rw [toInt, Nat.mul_div_cancel n one_pos]
    have size : (finite negative (n * one) fits).toInt.natAbs = n := by
      rw [natAbs_toInt_finite, Nat.mul_div_cancel n one_pos]
    rw [nearest_of_fits fits, ofUnits_of_fits fits, exactInt?, if_pos small,
      Option.filter_some_pos rfl, Option.bind_some, whole, size, value, decide_eq_true small]
    rfl
  · have large : 2 ^ 53 * one ≤ n * one :=
      Nat.mul_le_mul_right one (Nat.lt_of_not_le small : largestExact + 1 ≤ n)
    have rounded := le_nearest fits_two_pow_mul_one large
    rw [if_neg small, ofUnits]
    split
    case isTrue fits =>
      have size : ¬ (finite negative _ fits).toInt.natAbs ≤ largestExact := by
        rw [natAbs_toInt_finite, Nat.not_le]
        exact (Nat.le_div_iff_mul_le one_pos).mpr rounded
      rw [exactInt?, Option.filter_some_pos rfl, Option.bind_some, decide_eq_false size,
        Bool.and_false, if_neg Bool.false_ne_true]
    case isFalse => rfl

end LineScript.Binary64

namespace LineScript.Number

open Binary64

/-- A whole number is written in digits, with a minus sign in front of one below zero. -/
theorem toString_eq_ofList (n : Int) :
    toString n = String.ofList (if decide (n < 0) then '-' :: Nat.toDigits 10 n.natAbs
      else Nat.toDigits 10 n.natAbs) := by
  rw [Int.toString_eq_repr, Int.repr_eq_if, Nat.repr_eq_ofList_toDigits,
    Nat.repr_eq_ofList_toDigits]
  by_cases negative : n < 0
  · rw [if_neg (by omega), if_pos (decide_eq_true negative), show (-n).toNat = n.natAbs by omega]
    exact String.toList_injective (by simp)
  · rw [if_pos (by omega), decide_eq_false negative, if_neg Bool.false_ne_true,
      show n.toNat = n.natAbs by omega]

/-- A whole number as it is written is read as what it is, unless it is too large. -/
theorem integerOfText?_toString (n : Int) :
    integerOfText? (toString n) = if n.natAbs ≤ largestExact then some n else none := by
  have read : integerOfText? (toString n) =
      exactInt? (scale (decide (n < 0)) (Nat.toDigits 10 n.natAbs) 0) := by
    rw [toString_eq_ofList, integerOfText?,
      ofText?_digits _ (fun c => isDigit_of_mem) Nat.toDigits_ne_nil, exactInt?]
  rw [read]
  rcases scale_toDigits (decide (n < 0)) n.natAbs with near | ⟨large, infinite⟩
  · have signed : (if decide (n < 0) then -n.natAbs else n.natAbs : Int) = n := by
      by_cases negative : n < 0
      · rw [if_pos (decide_eq_true negative)]
        omega
      · rw [decide_eq_false negative, if_neg Bool.false_ne_true]
        omega
    rw [near, exactInt?_ofUnits_nearest, signed]
  · rw [infinite, if_neg (by omega)]
    rfl

end LineScript.Number
