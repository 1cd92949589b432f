/-!
# Ranges of characters

A character class is written as a list of closed code point ranges. `inRanges` is membership,
and `inRanges_iff` says so without the Boolean.
-/

namespace LineScript.Text

/-- The character lies in one of the closed code point ranges. -/
def inRanges (ranges : List (Nat × Nat)) (c : Char) : Bool :=
  ranges.any fun r => r.1 ≤ c.toNat && c.toNat ≤ r.2

theorem inRanges_iff {ranges : List (Nat × Nat)} {c : Char} :
    inRanges ranges c = true ↔ ∃ r ∈ ranges, r.1 ≤ c.toNat ∧ c.toNat ≤ r.2 := by
  simp [inRanges]

end LineScript.Text
