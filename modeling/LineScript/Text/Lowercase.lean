import LineScript.Text.Ranges
import LineScript.Text.Lowercase.Table

/-!
# Lower case

The full lower-case form of a text: every character by its mapping, the dotted capital I as two
characters, and a capital sigma as the final form at the end of a word.
-/

namespace LineScript.Text

namespace Lowercase

def isCased (c : Char) : Bool :=
  inRanges casedRanges c

def isIgnorable (c : Char) : Bool :=
  inRanges ignorableRanges c

/-- The lower-case form of a character by itself. -/
def ofChar (c : Char) : List Char :=
  if c.toNat < 0x80 then
    [c.toLower]
  else if c.toNat = 0x130 then
    ['i', Char.ofNat 0x307]
  else
    match runs.find? fun r =>
      r.first ≤ c.toNat && c.toNat ≤ r.last && (c.toNat - r.first) % r.step == 0 with
    | some r => [Char.ofNat (Int.toNat (c.toNat + r.offset))]
    | none => [c]

/-- The first character that the case does not look through has a case. -/
def startsCased (cs : List Char) : Bool :=
  match cs.dropWhile isIgnorable with
  | c :: _ => isCased c
  | [] => false

/-- The lower-case form of the characters that follow `before`, which is given last first. A
capital sigma takes its final form after a letter and before none. -/
def ofList (before : List Char) : List Char → List Char
  | [] => []
  | c :: rest =>
    let lower :=
      if c = 'Σ' then
        [if startsCased before && !startsCased rest then 'ς' else 'σ']
      else
        ofChar c
    lower ++ ofList (c :: before) rest

/-! No character is lost. -/

theorem ofChar_ne_nil (c : Char) : ofChar c ≠ [] := by
  unfold ofChar
  split
  · exact List.cons_ne_nil _ _
  · split
    · exact List.cons_ne_nil _ _
    · split <;> exact List.cons_ne_nil _ _

@[simp] theorem ofList_eq_nil_iff {before cs : List Char} : ofList before cs = [] ↔ cs = [] := by
  cases cs with
  | nil => simp [ofList]
  | cons c rest =>
    have kept : ofList before (c :: rest) ≠ [] := by
      rw [ofList]
      refine List.append_ne_nil_of_left_ne_nil ?_ _
      split
      · exact List.cons_ne_nil _ _
      · exact ofChar_ne_nil c
    simp only [kept, reduceCtorEq]

end Lowercase

/-- The text in lower case. -/
def lowercase (s : String) : String :=
  String.ofList (Lowercase.ofList [] s.toList)

@[simp] theorem lowercase_eq_empty_iff {s : String} : lowercase s = "" ↔ s = "" := by
  rw [lowercase, String.ofList_eq_empty_iff, Lowercase.ofList_eq_nil_iff, String.toList_eq_nil_iff]

end LineScript.Text
