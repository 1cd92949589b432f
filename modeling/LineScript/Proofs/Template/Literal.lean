import LineScript.Proofs.Template.Skeleton
import Mathlib.Data.List.Chain

/-!
# Templates that stand for themselves

Where no variables are set, a text comes out of its replacement as it is exactly if no `$` in it is
followed by another one or by `_` (`filled_eq_self_iff`). The measure is the number of these signs:
it never grows, and a reference that is not left as it is lowers it. So a text comes out of another
one with no more signs than it has only if the two are the same (`filled_eq_self_of_count_le`).
-/

namespace LineScript.Template

/-- No variables are set. -/
def unset : String → Option String := fun _ => none

/-- No `$` is followed by another one or by `_`. -/
def HasNoEscape (cs : List Char) : Prop :=
  cs.IsChain fun a b => a = '$' → b ≠ '$' ∧ b ≠ '_'

instance (cs : List Char) : Decidable (HasNoEscape cs) :=
  inferInstanceAs (Decidable (cs.IsChain _))

/-! ## Counting signs -/

theorem fill_name_unset (letters : List Char) :
    (Piece.name letters).fill unset = '$' :: letters := by
  rw [fill_name]
  rfl

/-- A piece keeps its signs, or some of them, and all of them only if it is left as it is. -/
theorem Piece.count_fill_le (piece : Piece) :
    (piece.fill unset).count '$' ≤ piece.spelling.count '$' ∧
      ((piece.fill unset).count '$' = piece.spelling.count '$' →
        piece.fill unset = piece.spelling) := by
  cases piece with
  | literal run => exact ⟨Nat.le_refl _, fun _ => rfl⟩
  | name letters =>
    rw [fill_name_unset]
    exact ⟨Nat.le_refl _, fun _ => rfl⟩
  | _ => decide

theorem count_filled_le (cs : List Char) :
    (filled unset cs).count '$' ≤ cs.count '$' ∧
      ((filled unset cs).count '$' = cs.count '$' → filled unset cs = cs) := by
  have parts := decomposes_parse cs
  generalize parse cs = pieces at parts
  -- The bounds of the pieces add up, and their sum is reached only if each of them is.
  induction parts with
  | nil => simp
  | @cons piece rest pieces fits _ ih =>
    have first := piece.count_fill_le
    rw [filled_spelling unset fits, List.count_append, List.count_append]
    refine ⟨Nat.add_le_add first.1 ih.1, fun same => ?_⟩
    rw [first.2 (by omega), ih.2 (by omega)]

theorem filled_eq_self_of_count_le {cs : List Char}
    (few : cs.count '$' ≤ (filled unset cs).count '$') : filled unset cs = cs :=
  (count_filled_le cs).2 (Nat.le_antisymm (count_filled_le cs).1 few)

/-! ## Which texts are left as they are -/

theorem hasNoEscape_cons {c : Char} {cs : List Char} :
    HasNoEscape (c :: cs) ↔
      (∀ d ∈ cs.head?, c = '$' → d ≠ '$' ∧ d ≠ '_') ∧ HasNoEscape cs :=
  List.isChain_cons

theorem not_hasNoEscape {d : Char} {rest : List Char} (escape : d = '$' ∨ d = '_') :
    ¬ HasNoEscape ('$' :: d :: rest) := fun free => by
  obtain ⟨notSign, notLine⟩ := (hasNoEscape_cons.mp free).1 d rfl rfl
  exact escape.elim notSign notLine

theorem hasNoEscape_append_of_free {run : List Char} (free : '$' ∉ run) (rest : List Char) :
    HasNoEscape (run ++ rest) ↔ HasNoEscape rest := by
  induction run with
  | nil => rfl
  | cons c run ih =>
    obtain ⟨plain, free⟩ := not_or.mp (List.mem_cons.not.mp free)
    rw [List.cons_append, hasNoEscape_cons, ih free]
    exact and_iff_right fun _ _ sign => absurd sign.symm plain

theorem IsName.notMem_sign {letters : List Char} (isName : IsName letters) : '$' ∉ letters := by
  cases letters with
  | nil => exact isName.elim
  | cons first others =>
    rintro mem
    rcases List.mem_cons.mp mem with rfl | later
    · cases isName.1
    · cases isName.2 '$' later

/-- The signs that a piece keeps are those before which nothing is found to be replaced. -/
theorem hasNoEscape_spelling_append {piece : Piece} {rest : List Char} (fits : piece.Fits rest) :
    HasNoEscape (piece.spelling ++ rest) ↔
      piece.fill unset = piece.spelling ∧ HasNoEscape rest := by
  cases piece with
  | literal run =>
    obtain ⟨-, free, -⟩ := fits
    rw [Piece.spelling, hasNoEscape_append_of_free free, fill_literal, and_iff_right rfl]
  | name letters =>
    obtain ⟨isName, -⟩ := fits
    have first : ∀ d ∈ (letters ++ rest).head?, '$' = '$' → d ≠ '$' ∧ d ≠ '_' := by
      cases letters with
      | nil => exact isName.elim
      | cons letter others =>
        rintro d ⟨⟩ -
        constructor
        · rintro rfl
          cases isName.1
        · rintro rfl
          cases isName.1
    rw [Piece.spelling, List.cons_append, hasNoEscape_cons,
      hasNoEscape_append_of_free isName.notMem_sign, fill_name_unset, and_iff_right first,
      and_iff_right rfl]
  | lone =>
    have first : ∀ d ∈ rest.head?, '$' = '$' → d ≠ '$' ∧ d ≠ '_' :=
      fun d head _ => ⟨(fits d head).1, (fits d head).2.1⟩
    rw [Piece.spelling, List.singleton_append, hasNoEscape_cons, and_iff_right first]
    exact (and_iff_right rfl).symm
  | newline => exact iff_of_false (not_hasNoEscape (.inl rfl)) fun same => by cases same.1
  | space => exact iff_of_false (not_hasNoEscape (.inl rfl)) fun same => by cases same.1
  | dollar => exact iff_of_false (not_hasNoEscape (.inl rfl)) fun same => by cases same.1
  | pi => exact iff_of_false (not_hasNoEscape (.inr rfl)) fun same => by cases same.1
  | euler => exact iff_of_false (not_hasNoEscape (.inr rfl)) fun same => by cases same.1
  | nothing => exact iff_of_false (not_hasNoEscape (.inr rfl)) fun same => by cases same.1

theorem filled_eq_self_iff {cs : List Char} : filled unset cs = cs ↔ HasNoEscape cs := by
  have parts := decomposes_parse cs
  generalize parse cs = pieces at parts
  induction parts with
  | nil => simp [HasNoEscape]
  | @cons piece rest pieces fits _ ih =>
    rw [hasNoEscape_spelling_append fits, filled_spelling unset fits]
    constructor
    · intro same
      have first := piece.count_fill_le
      have later := count_filled_le rest
      have total := congrArg (List.count '$') same
      rw [List.count_append, List.count_append] at total
      exact ⟨first.2 (by omega), ih.mp (later.2 (by omega))⟩
    · rintro ⟨first, later⟩
      rw [first, ih.mpr later]

theorem expand_unset_eq_self_iff {text : String} :
    expand unset text = text ↔ HasNoEscape text.toList := by
  rw [← String.toList_inj, toList_expand, filled_eq_self_iff]

end LineScript.Template
