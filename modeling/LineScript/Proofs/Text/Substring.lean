import LineScript.Command.Builtin.Text
import LineScript.Proofs.Number.Nearest

/-!
# Parts cut out by position

Two numbers cut the characters between two places out of a text. The place of a number depends on
its exact value alone and does not go down as the value goes up, so parts that meet at a number are
put together by appending them, and a part from the start to the end is the whole text.

In floating point the fraction is dropped, the number is moved between zero and the length, and what
comes out is made an index. As long as the length is a number of the format, all of this is exact
(`index?_clamp?`), and no difference of indices is below zero (`substringInDoubles?_eq`).
-/

namespace LineScript

open Number

/-! ## Places -/

namespace Binary64

theorem wholePart_mono {p q : ℚ} (le : p ≤ q) : wholePart p ≤ wholePart q := by
  unfold wholePart
  by_cases low : p < 0
  · by_cases high : q < 0
    · rw [if_pos low, if_pos high]
      exact Int.ceil_mono le
    · have below : ⌈p⌉ ≤ 0 := Int.ceil_le.mpr (by exact_mod_cast low.le)
      have above : 0 ≤ ⌊q⌋ := Int.floor_nonneg.mpr (not_lt.mp high)
      rw [if_pos low, if_neg high]
      exact below.trans above
  · rw [if_neg low, if_neg fun high => low (le.trans_lt high)]
    exact Int.floor_mono le

theorem wholePart_natCast (n : ℕ) : wholePart n = n := by
  rw [wholePart, if_neg (not_lt.mpr (Nat.cast_nonneg n)), Int.floor_natCast]

theorem wholePart_zero : wholePart 0 = 0 := by
  exact_mod_cast wholePart_natCast 0

theorem ofNat_eq {n : Nat} (fits : Fits (n * one)) : ofNat n = .finite false (n * one) fits := by
  rw [ofNat, ofRatio, ofUnitRatio_of_fits]

/-- A whole number up to `2 ^ 53` fits, the last one included. -/
theorem fits_mul_one_of_le {n : Nat} (le : n ≤ 2 ^ 53) : Fits (n * one) := by
  rcases Nat.lt_or_eq_of_le le with below | rfl
  · exact fits_mul_one below
  · exact fits_two_pow_mul_one

end Binary64

namespace Builtin

open Binary64

/-- The place of a number among so many characters: the fraction is dropped, and what is outside is
moved to the nearer end. -/
def placeOf (length : Nat) (q : ℚ) : ℤ :=
  max 0 (min (wholePart q) length)

theorem placeOf_mono (length : Nat) {p q : ℚ} (le : p ≤ q) : placeOf length p ≤ placeOf length q :=
  max_le_max le_rfl (min_le_min (wholePart_mono le) le_rfl)

theorem placeOf_of_nonpos (length : Nat) {q : ℚ} (le : q ≤ 0) : placeOf length q = 0 := by
  have whole := wholePart_mono le
  rw [wholePart_zero] at whole
  unfold placeOf
  omega

theorem placeOf_of_length_le {length : Nat} {q : ℚ} (le : length ≤ q) :
    placeOf length q = length := by
  have whole := wholePart_mono le
  rw [wholePart_natCast] at whole
  unfold placeOf
  omega

/-- The position of a number is the place of its exact value. -/
theorem position_eq_placeOf (length : Nat) {x : Binary64} {q : ℚ} (value : x.value? = some q) :
    (position length x : ℤ) = placeOf length q := by
  rw [position, placeOf, ← toInt_eq_wholePart value]
  omega

theorem position_mono (length : Nat) {x y : Binary64} {p q : ℚ} (first : x.value? = some p)
    (second : y.value? = some q) (le : p ≤ q) : position length x ≤ position length y := by
  have places := placeOf_mono length le
  rw [← position_eq_placeOf length first, ← position_eq_placeOf length second] at places
  exact_mod_cast places

theorem position_le (length : Nat) (x : Binary64) : position length x ≤ length :=
  Nat.min_le_right _ _

/-! ## Parts -/

section

variable {text : String} {x y z : Binary64}

theorem substring_comm (text : String) (x y : Binary64) :
    substring text x y = substring text y x := by
  simp only [substring, Nat.min_comm, Nat.max_comm]

theorem toList_substring (text : String) (x y : Binary64) :
    (substring text x y).toList =
      (text.toList.drop (min (position text.length x) (position text.length y))).take
        (max (position text.length x) (position text.length y) -
          min (position text.length x) (position text.length y)) := by
  simp only [substring, String.toList_ofList, String.length_toList]

theorem toList_substring_of_le (le : position text.length x ≤ position text.length y) :
    (substring text x y).toList =
      (text.toList.drop (position text.length x)).take
        (position text.length y - position text.length x) := by
  rw [toList_substring, Nat.min_eq_left le, Nat.max_eq_right le]

/-- What stands between two places, together with what stands before and after. -/
theorem take_append_between_append_drop {cs : List Char} {i j : Nat} (le : i ≤ j) :
    cs.take i ++ (cs.drop i).take (j - i) ++ cs.drop j = cs := by
  rw [← List.take_add, Nat.add_sub_cancel' le, List.take_append_drop]

/-- Two parts that meet leave nothing out and have nothing in common. -/
theorem substring_append (first : position text.length x ≤ position text.length y)
    (second : position text.length y ≤ position text.length z) :
    substring text x y ++ substring text y z = substring text x z := by
  apply String.toList_injective
  rw [String.toList_append, toList_substring_of_le first, toList_substring_of_le second,
    toList_substring_of_le (first.trans second)]
  generalize position text.length x = i at *
  generalize position text.length y = j at *
  generalize position text.length z = k at *
  -- The second part starts so far into the rest of the text as the first one is long.
  have rest : text.toList.drop j = (text.toList.drop i).drop (j - i) := by
    rw [List.drop_drop, Nat.add_sub_cancel' first]
  rw [rest, ← List.take_add]
  congr 1
  omega

/-- A part stands in the text between the lower and the higher one of two places. -/
theorem exists_eq_append_substring (text : String) (x y : Binary64) :
    ∃ before after, text = before ++ substring text x y ++ after ∧
      before.length = min (position text.length x) (position text.length y) ∧
      (before ++ substring text x y).length =
        max (position text.length x) (position text.length y) := by
  have size : text.toList.length = text.length := String.length_toList
  have lowest := position_le text.length x
  have highest := position_le text.length y
  generalize low : min (position text.length x) (position text.length y) = i
  generalize high : max (position text.length x) (position text.length y) = j
  have part : (substring text x y).toList = (text.toList.drop i).take (j - i) := by
    rw [toList_substring, low, high]
  refine ⟨.ofList (text.toList.take i), .ofList (text.toList.drop j), ?_, ?_, ?_⟩
  · apply String.toList_injective
    rw [String.toList_append, String.toList_append, part, String.toList_ofList,
      String.toList_ofList, take_append_between_append_drop (by omega)]
  · rw [String.length_ofList, List.length_take]
    omega
  · rw [String.length_append, String.length_ofList, ← String.length_toList, part,
      List.length_take, List.length_take, List.length_drop]
    omega

end

/-! ## In floating point -/

/-- A number moved into a range; nothing if the range is empty. -/
def clamp? (low high x : Binary64) : Option Binary64 :=
  if low.le high then
    let x := if x.lt low then low else x
    some (if high.lt x then high else x)
  else none

/-- A number as an index; nothing unless it is a whole number that a word without a sign holds. -/
def index? (x : Binary64) : Option Nat :=
  if x.isWhole ∧ 0 ≤ x.toInt ∧ x.toInt < UInt64.size then some x.toInt.toNat else none

/-- A difference of words without a sign; nothing if it is below zero. -/
def difference? (a b : Nat) : Option Nat :=
  if b ≤ a then some (a - b) else none

/-- The characters between two numbers, by steps in floating point and in words; nothing, if one of
the steps is not exact. -/
def substringInDoubles? (text : String) (start stop : Binary64) : Option String := do
  let length := ofNat text.length
  let a ← index? (← clamp? (zero false) length start.trunc)
  let b ← index? (← clamp? (zero false) length stop.trunc)
  let (first, last) := if a ≤ b then (a, b) else (b, a)
  let count ← difference? last first
  return String.ofList ((text.toList.drop first).take count)

attribute [local irreducible] one

section

variable {u size : Nat} {negative : Bool} (fits : Fits u) (fitting : Fits size)

theorem lt_finite_iff :
    (finite false size fitting).lt (.finite negative u fits) = true ↔
      negative = false ∧ size < u := by
  cases negative <;> simp [lt]

theorem zero_le_finite : (zero false).le (.finite false size fitting) = true := by
  rcases Nat.eq_zero_or_pos size with rfl | pos
  · simp [le, eq, zero]
  · simp [le, lt, zero, pos]

/-- A number is moved up to zero, or down to the upper end, or stays where it is. -/
theorem clamp?_finite :
    clamp? (zero false) (.finite false size fitting) (.finite negative u fits) =
      some (if negative = true ∧ 0 < u then zero false
        else if negative = false ∧ size < u then .finite false size fitting
        else .finite negative u fits) := by
  rw [clamp?, if_pos (zero_le_finite fitting)]
  simp only [lt_zero_iff]
  by_cases below : negative = true ∧ 0 < u
  · have inside : (finite false size fitting).lt (zero false) = false := by
      simp [lt, zero]
    rw [if_pos below, if_pos below, inside, if_neg Bool.false_ne_true]
  · rw [if_neg below, if_neg below]
    simp only [lt_finite_iff]

end

section

variable {n length : Nat} {negative : Bool}

theorem index?_mul_one (small : n ≤ 2 ^ 53) (fits : Fits (n * one))
    (sign : negative = true → n = 0) : index? (.finite negative (n * one) fits) = some n := by
  have whole : (finite negative (n * one) fits).isWhole = true := by
    simp [isWhole]
  have value : (finite negative (n * one) fits).toInt = n := by
    rw [toInt, Nat.mul_div_cancel n Binary64.one_pos]
    cases negative with
    | false => rfl
    | true =>
      rw [sign rfl]
      rfl
  rw [index?, whole, value, if_pos ⟨rfl, Int.natCast_nonneg n, by simp only [UInt64.size]; omega⟩,
    Int.toNat_natCast]

theorem index?_zero : index? (zero false) = some 0 := by
  simp [index?, zero, isWhole, toInt, UInt64.size]

/-- A whole number is moved into the text as an integer is. -/
theorem index?_clamp?_mul_one (short : length ≤ 2 ^ 53) (size : Fits (length * one))
    (fits : Fits (n * one)) :
    (clamp? (zero false) (.finite false (length * one) size) (.finite negative (n * one) fits)).bind
      index? = some (min (if negative then -n else n : ℤ).toNat length) := by
  rw [clamp?_finite, Option.bind_some]
  simp only [Nat.mul_pos_iff_of_pos_right Binary64.one_pos,
    Nat.mul_lt_mul_right Binary64.one_pos]
  cases negative with
  | false =>
    -- The number is not below zero, but it may be beyond the text.
    rw [if_neg (by simp)]
    by_cases large : length < n
    · rw [if_pos ⟨rfl, large⟩, index?_mul_one short size (by simp)]
      simp
      omega
    · rw [if_neg (by simp [large]), index?_mul_one (by omega) fits (by simp)]
      simp
      omega
  | true =>
    by_cases pos : 0 < n
    · rw [if_pos ⟨rfl, pos⟩, index?_zero]
      simp
    · obtain rfl : n = 0 := by omega
      rw [if_neg (by simp), if_neg (by simp), index?_mul_one (by omega) fits (by simp)]
      simp

end

/-- Without its fraction a number that is moved into the text is its position there. -/
theorem index?_clamp? {length : Nat} (short : length ≤ 2 ^ 53) {x : Binary64} {q : ℚ}
    (value : x.value? = some q) :
    (clamp? (zero false) (ofNat length) x.trunc).bind index? = some (position length x) := by
  cases x with
  | nan => cases value
  | infinite negative => cases value
  | finite negative u fits =>
    rw [trunc_finite fits, ofNat_eq (fits_mul_one_of_le short), index?_clamp?_mul_one short]
    rfl

/-- The indices come out in order, so that their difference is not below zero. -/
theorem substringInDoubles?_eq {text : String} (short : text.length ≤ 2 ^ 53) {x y : Binary64}
    {p q : ℚ} (first : x.value? = some p) (second : y.value? = some q) :
    substringInDoubles? text x y = some (substring text x y) := by
  have start := index?_clamp? short first
  have stop := index?_clamp? short second
  have ordered : ∀ i j : Nat, (if i ≤ j then (i, j) else (j, i)) = (min i j, max i j) := by
    intro i j
    split
    · rename_i le
      rw [Nat.min_eq_left le, Nat.max_eq_right le]
    · rename_i gt
      rw [Nat.min_eq_right (by omega), Nat.max_eq_left (by omega)]
  simp only [substringInDoubles?, Option.bind_eq_bind, ← Option.bind_assoc, start, stop,
    Option.bind_some, ordered]
  rw [difference?, if_pos (Nat.le_trans (Nat.min_le_left _ _) (Nat.le_max_left _ _)),
    Option.bind_some]
  simp only [substring, String.length_toList]
  rfl

/-! ## Cutting a text -/

/-- The characters between two numbers are the same from either side, and they stand in the text
from the place of the one to the place of the other. Parts that meet are put together without loss
and without repetition, so a part that takes in all places is the text. The steps in floating point
come to the same, for any text whose length is a number of the format. -/
theorem substring_cuts_without_loss (text : String) {x y z : Binary64} {a b c : ℚ}
    (first : x.value? = some a) (second : y.value? = some b) (third : z.value? = some c) :
    substring text x y = substring text y x ∧
    (∃ before after, text = before ++ substring text x y ++ after ∧
      (before.length : ℤ) = min (placeOf text.length a) (placeOf text.length b) ∧
      ((before ++ substring text x y).length : ℤ) =
        max (placeOf text.length a) (placeOf text.length b)) ∧
    (a ≤ b → b ≤ c → substring text x y ++ substring text y z = substring text x z) ∧
    (a ≤ 0 → text.length ≤ b → substring text x y = text) ∧
    (text.length ≤ 2 ^ 53 → substringInDoubles? text x y = some (substring text x y)) := by
  have parts : ∃ before after, text = before ++ substring text x y ++ after ∧
      (before.length : ℤ) = min (placeOf text.length a) (placeOf text.length b) ∧
      ((before ++ substring text x y).length : ℤ) =
        max (placeOf text.length a) (placeOf text.length b) := by
    obtain ⟨before, after, whole, low, high⟩ := exists_eq_append_substring text x y
    refine ⟨before, after, whole, ?_, ?_⟩
    · rw [low, Nat.cast_min, position_eq_placeOf _ first, position_eq_placeOf _ second]
    · rw [high, Nat.cast_max, position_eq_placeOf _ first, position_eq_placeOf _ second]
  refine ⟨substring_comm text x y, parts, ?_, ?_,
    fun short => substringInDoubles?_eq short first second⟩
  · intro low high
    exact substring_append (position_mono _ first second low) (position_mono _ second third high)
  · intro low high
    -- Nothing stands before the first place and nothing after the last.
    obtain ⟨before, after, whole, lowest, highest⟩ := parts
    rw [placeOf_of_nonpos _ low, placeOf_of_length_le high] at lowest highest
    have total := congrArg String.length whole
    rw [String.length_append] at total
    have noneBefore : before = "" := by
      rw [← String.length_eq_zero_iff]
      omega
    have noneAfter : after = "" := by
      rw [← String.length_eq_zero_iff]
      omega
    rw [noneBefore, noneAfter] at whole
    simpa using whole.symm

/-- A word is cut after its second letter, from a number below zero up to one that is too large. -/
theorem accented_word_is_cut :
    let x := ofRatio true 5 2
    let y := ofRatio false 5 2
    let z := ofNat 99
    x.value? = some (-5 / 2) ∧ y.value? = some (5 / 2) ∧ z.value? = some 99 ∧
      substring "héllo" x y = "hé" ∧ substring "héllo" y z = "llo" ∧
      substring "héllo" x y ++ substring "héllo" y z = "héllo" ∧
      substring "héllo" y x = substring "héllo" x y ∧
      substringInDoubles? "héllo" x y = some (substring "héllo" x y) := by
  intro x y z
  have first : x.value? = some (-5 / 2) := by decide +kernel
  have second : y.value? = some (5 / 2) := by decide +kernel
  have third : z.value? = some 99 := by decide +kernel
  obtain ⟨swapped, -, joined, -, exact⟩ :=
    substring_cuts_without_loss "héllo" first second third
  obtain ⟨-, -, -, whole, -⟩ := substring_cuts_without_loss "héllo" first third third
  refine ⟨first, second, third, by decide +kernel, by decide +kernel, ?_, swapped.symm,
    exact (by decide)⟩
  rw [joined (by norm_num) (by norm_num)]
  exact whole (by norm_num) (by rw [show "héllo".length = 5 from rfl]; norm_num)

end Builtin

end LineScript
