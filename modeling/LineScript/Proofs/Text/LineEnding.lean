import LineScript.Text.Fields
import Mathlib.Data.List.Infix

/-!
# Line endings

A text without carriage returns and the same text with one before each line feed have the same lines
(`sourceLines_withReturns`). No line holds a line feed, and the lines of a text without carriage
returns, put together with line feeds, are the text, but for a line feed at its very end
(`intercalate_sourceLines`).
-/

namespace LineScript.Text

/-- The characters with `\r\n` for each `\n`. -/
def returned (cs : List Char) : List Char :=
  cs.flatMap fun c => if c = '\n' then ['\r', '\n'] else [c]

/-- The text with `\r\n` for each `\n`. -/
def withReturns (text : String) : String :=
  String.ofList (returned text.toList)

/-- What follows the last line: a line feed if the text ends in one. -/
def lastEnding (text : String) : String :=
  if text.toList.getLast? = some '\n' then "\n" else ""

/-! ## Cutting into lines -/

section

variable {c : Char} {cs : List Char}

theorem splitLines_newline (cs : List Char) : splitLines ('\n' :: cs) = [] :: splitLines cs := by
  rw [splitLines]

theorem splitLines_return_newline (cs : List Char) :
    splitLines ('\r' :: '\n' :: cs) = [] :: splitLines cs := by
  rw [splitLines]

/-- Any other character starts the line that follows, or is a line of its own at the end. So does
a carriage return without a line feed. -/
theorem splitLines_cons (feed : c ≠ '\n') (unpaired : ∀ rest, c = '\r' → cs ≠ '\n' :: rest) :
    splitLines (c :: cs) =
      match splitLines cs with
      | [] => [[c]]
      | line :: lines => (c :: line) :: lines :=
  splitLines.eq_4 c cs feed unpaired

theorem splitLines_eq_nil_iff : splitLines cs = [] ↔ cs = [] := by
  induction cs using splitLines.induct with
  | case1 => simp [splitLines]
  | case2 rest ih => simp [splitLines_newline]
  | case3 rest ih => simp [splitLines_return_newline]
  | case4 c rest feed unpaired none ih => simp [splitLines_cons feed unpaired, none]
  | case5 c rest feed unpaired line lines cut ih => simp [splitLines_cons feed unpaired, cut]

/-- No line holds a line feed. -/
theorem newline_notMem_of_mem_splitLines :
    ∀ line ∈ splitLines cs, '\n' ∉ line := by
  induction cs using splitLines.induct with
  | case1 => simp [splitLines]
  | case2 rest ih => simpa [splitLines_newline] using ih
  | case3 rest ih => simpa [splitLines_return_newline] using ih
  | case4 c rest feed unpaired none ih =>
    rw [splitLines_cons feed unpaired, none]
    simpa using fun eq => feed eq.symm
  | case5 c rest feed unpaired line lines cut ih =>
    rw [cut] at ih
    rw [splitLines_cons feed unpaired, cut]
    intro other mem
    rcases List.mem_cons.mp mem with rfl | later
    · have fresh := ih line List.mem_cons_self
      simpa [fresh] using fun eq => feed eq.symm
    · exact ih other (List.mem_cons_of_mem _ later)

/-! ## Carriage returns -/

theorem returned_newline (cs : List Char) : returned ('\n' :: cs) = '\r' :: '\n' :: returned cs :=
  rfl

theorem returned_cons (feed : c ≠ '\n') (cs : List Char) :
    returned (c :: cs) = c :: returned cs := by
  rw [returned, List.flatMap_cons, if_neg feed]
  rfl

theorem splitLines_returned (free : '\r' ∉ cs) : splitLines (returned cs) = splitLines cs := by
  induction cs with
  | nil => rfl
  | cons c rest ih =>
    have later : '\r' ∉ rest := fun mem => free (List.mem_cons_of_mem c mem)
    by_cases feed : c = '\n'
    · rw [feed, returned_newline, splitLines_return_newline, splitLines_newline, ih later]
    · have plain : c ≠ '\r' := fun eq => free (eq ▸ List.mem_cons_self)
      have unpaired : ∀ cs rest, c = '\r' → cs ≠ '\n' :: rest := fun _ _ eq _ => plain eq
      rw [returned_cons feed, splitLines_cons feed (unpaired _), splitLines_cons feed (unpaired _),
        ih later]

/-! ## Putting lines together -/

theorem intercalate_splitLines (free : '\r' ∉ cs) :
    ['\n'].intercalate (splitLines cs) ++
      (if cs.getLast? = some '\n' then ['\n'] else []) = cs := by
  induction cs with
  | nil => rfl
  | cons c rest ih =>
    have later : '\r' ∉ rest := fun mem => free (List.mem_cons_of_mem c mem)
    by_cases feed : c = '\n'
    · subst feed
      rw [splitLines_newline]
      cases rest with
      | nil => simp [splitLines]
      | cons d more =>
        have lines : splitLines (d :: more) ≠ [] := by simp [splitLines_eq_nil_iff]
        rw [List.intercalate_cons_of_ne_nil lines, List.getLast?_cons_cons, List.append_assoc,
          ih later]
        rfl
    · have plain : c ≠ '\r' := fun eq => free (eq ▸ List.mem_cons_self)
      rw [splitLines_cons feed fun _ eq _ => plain eq]
      cases rest with
      | nil => simp [splitLines, feed]
      | cons d more =>
        have glued := ih later
        rw [List.getLast?_cons_cons]
        -- The character stands before the first line of the rest.
        cases cut : splitLines (d :: more) with
        | nil => simp [splitLines_eq_nil_iff] at cut
        | cons line lines =>
          rw [cut] at glued
          cases lines with
          | nil =>
            rw [List.intercalate_singleton] at glued
            simp only [List.intercalate_singleton, List.cons_append, glued]
          | cons next others =>
            rw [List.intercalate_cons_cons] at glued
            simp only [List.intercalate_cons_cons, List.cons_append, glued]

end

/-! ## Texts -/

section

variable {text : String}

theorem sourceLines_withReturns (free : '\r' ∉ text.toList) :
    sourceLines (withReturns text) = sourceLines text := by
  rw [sourceLines, withReturns, String.toList_ofList, splitLines_returned free, sourceLines]

theorem newline_notMem_of_mem_sourceLines {line : String} (mem : line ∈ sourceLines text) :
    '\n' ∉ line.toList := by
  obtain ⟨cs, cut, rfl⟩ := List.mem_map.mp mem
  rw [String.toList_ofList]
  exact newline_notMem_of_mem_splitLines cs cut

theorem intercalate_sourceLines (free : '\r' ∉ text.toList) :
    String.intercalate "\n" (sourceLines text) ++ lastEnding text = text := by
  apply String.toList_injective
  have lines : (sourceLines text).map String.toList = splitLines text.toList := by
    simp [sourceLines, Function.comp_def]
  have ending : (lastEnding text).toList =
      if text.toList.getLast? = some '\n' then ['\n'] else [] := by
    unfold lastEnding
    split <;> rfl
  rw [String.toList_append, String.toList_intercalate, lines, ending]
  exact intercalate_splitLines free

end

/-! ## Texts saved anew -/

/-- The same text, or one that has `\r\n` where the other has `\n`. -/
inductive Resaved : String → String → Prop where
  | same (text : String) : Resaved text text
  | withReturns {text : String} (free : '\r' ∉ text.toList) : Resaved text (withReturns text)
  | withoutReturns {text : String} (free : '\r' ∉ text.toList) : Resaved (withReturns text) text

theorem Resaved.sourceLines_eq {text text' : String} (resaved : Resaved text text') :
    sourceLines text = sourceLines text' := by
  cases resaved with
  | same => rfl
  | withReturns free => exact (sourceLines_withReturns free).symm
  | withoutReturns free => exact sourceLines_withReturns free

end LineScript.Text
