import LineScript.Text.Ranges

/-!
# Blank characters

Blanks are the characters with the Unicode property White_Space. Trimming removes them at the
ends of a text, and `words` are the maximal runs without one.
-/

namespace LineScript.Text

/-- The code points with the property White_Space. -/
def blankRanges : List (Nat × Nat) :=
  [(0x9, 0xd), (0x20, 0x20), (0x85, 0x85), (0xa0, 0xa0), (0x1680, 0x1680), (0x2000, 0x200a),
   (0x2028, 0x2029), (0x202f, 0x202f), (0x205f, 0x205f), (0x3000, 0x3000)]

def isBlank (c : Char) : Bool :=
  inRanges blankRanges c

/-- The text without the blanks at its start. -/
def trimStart (s : String) : String :=
  String.ofList (s.toList.dropWhile isBlank)

/-- The text without the blanks at its end. -/
def trimEnd (s : String) : String :=
  String.ofList (s.toList.reverse.dropWhile isBlank).reverse

/-- The text without the blanks at both ends. -/
def trim (s : String) : String :=
  trimEnd (trimStart s)

/-- The maximal runs of characters that are not blank, in order. -/
def words (s : String) : List String :=
  ((s.toList.splitOnP isBlank).filter (!·.isEmpty)).map String.ofList

@[simp] theorem toList_trimStart (s : String) :
    (trimStart s).toList = s.toList.dropWhile isBlank := by
  simp [trimStart]

/-- What is left after trimming the start does not begin with a blank. -/
theorem head?_trimStart {s : String} {c : Char} (h : (trimStart s).toList.head? = some c) :
    isBlank c = false := by
  rw [toList_trimStart] at h
  generalize s.toList = l at h
  induction l with
  | nil => simp at h
  | cons a r ih =>
    by_cases ha : isBlank a = true
    · exact ih (by simpa [List.dropWhile, ha] using h)
    · simp only [List.dropWhile, ha, List.head?_cons, Option.some.injEq] at h
      simpa [h] using ha

end LineScript.Text
