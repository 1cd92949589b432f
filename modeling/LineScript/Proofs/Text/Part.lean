import LineScript.Text.Blank
import LineScript.Text.Fields
import Mathlib.Data.List.Infix

/-!
# Parts of a text

A part of a text is a run of its characters without a gap. Cutting a line into fields, putting some
of them together again and trimming the result never leaves the text of the line, so whatever a
command takes from its arguments as they are written is a part of its line. `parts` lists all parts
of a text: there are finitely many.
-/

namespace LineScript

namespace Text

/-- The characters stand in the text one after the other. -/
def IsPart (part whole : String) : Prop :=
  part.toList <:+: whole.toList

theorem IsPart.refl (s : String) : IsPart s s :=
  List.infix_refl _

theorem IsPart.trans {a b c : String} (first : IsPart a b) (second : IsPart b c) : IsPart a c :=
  List.IsInfix.trans first second

theorem isPart_empty (s : String) : IsPart "" s := by
  simp [IsPart]

theorem isPart_trim (s : String) : IsPart (trim s) s := by
  have start : (trimStart s).toList <:+ s.toList := by
    rw [toList_trimStart]
    exact List.dropWhile_suffix _
  have stop : (trim s).toList <+: (trimStart s).toList := by
    have back := List.dropWhile_suffix (l := (trimStart s).toList.reverse) isBlank
    simpa [trim, trimEnd, ← List.reverse_suffix] using back
  exact stop.isInfix.trans start.isInfix

theorem trim_of_free {s : String} (free : ∀ c ∈ s.toList, isBlank c = false) : trim s = s := by
  have kept : ∀ cs : List Char, (∀ c ∈ cs, isBlank c = false) → cs.dropWhile isBlank = cs := by
    intro cs plain
    cases cs with
    | nil => rfl
    | cons c rest => exact List.dropWhile_cons_of_neg (by simp [plain c (List.mem_cons_self ..)])
  rw [trim, trimEnd, toList_trimStart, kept _ free,
    kept _ fun c mem => free c (List.mem_reverse.mp mem), List.reverse_reverse,
    String.ofList_toList]

/-! ## Fields -/

theorem unfields_cons (field : String) {rest : List String} (more : rest ≠ []) :
    unfields (field :: rest) = field ++ " " ++ unfields rest :=
  String.intercalate_cons_of_ne_nil more

/-- A line is its fields with single spaces between them. -/
theorem unfields_fields (s : String) : unfields (fields s) = s := by
  apply String.toList_injective
  have fields_toList : (fields s).map String.toList = s.toList.splitOn ' ' := by
    simp [fields, Function.comp_def]
  rw [unfields, String.toList_intercalate, fields_toList]
  exact List.intercalate_splitOn ' '

/-- The fields after the first are a part of all fields. -/
theorem isPart_unfields_tail (field : String) (rest : List String) :
    IsPart (unfields rest) (unfields (field :: rest)) := by
  cases rest with
  | nil => exact isPart_empty _
  | cons next others =>
    rw [unfields_cons field (List.cons_ne_nil next others)]
    refine List.IsSuffix.isInfix ⟨(field ++ " ").toList, ?_⟩
    simp

theorem isPart_unfields_head (field : String) (rest : List String) :
    IsPart field (unfields (field :: rest)) := by
  cases rest with
  | nil =>
    show IsPart field (String.intercalate " " [field])
    rw [String.intercalate_singleton]
    exact IsPart.refl field
  | cons next others =>
    rw [unfields_cons field (List.cons_ne_nil next others)]
    refine List.IsPrefix.isInfix ⟨(" " ++ unfields (next :: others)).toList, ?_⟩
    simp

theorem isPart_unfields_of_mem {field : String} {fields : List String} (h : field ∈ fields) :
    IsPart field (unfields fields) := by
  induction fields with
  | nil => cases h
  | cons first rest ih =>
    rcases List.mem_cons.mp h with rfl | later
    · exact isPart_unfields_head field rest
    · exact (ih later).trans (isPart_unfields_tail first rest)

theorem isPart_unfields_drop (fields : List String) (n : Nat) :
    IsPart (unfields (fields.drop n)) (unfields fields) := by
  induction fields generalizing n with
  | nil => simpa using IsPart.refl _
  | cons first rest ih =>
    cases n with
    | zero => exact IsPart.refl _
    | succ n => exact (ih n).trans (isPart_unfields_tail first rest)

/-! ## The finite set of parts -/

/-- All parts of a text. -/
def parts (s : String) : List String :=
  (s.toList.tails.flatMap List.inits).map String.ofList

theorem mem_parts_iff {part s : String} : part ∈ parts s ↔ IsPart part s := by
  have listed : part ∈ parts s ↔ part.toList ∈ s.toList.tails.flatMap List.inits := by
    constructor
    · intro h
      obtain ⟨cs, mem, rfl⟩ := List.mem_map.mp h
      simpa using mem
    · intro h
      exact List.mem_map.mpr ⟨part.toList, h, String.ofList_toList⟩
  rw [listed, IsPart, List.infix_iff_prefix_suffix]
  simp only [List.mem_flatMap, List.mem_tails, List.mem_inits]
  exact ⟨fun ⟨t, suffix, init⟩ => ⟨t, init, suffix⟩, fun ⟨t, init, suffix⟩ => ⟨t, suffix, init⟩⟩

/-! ## Carriage returns -/

theorem IsPart.dropReturns {part whole : String} (h : IsPart part whole) :
    IsPart (dropReturns part) (dropReturns whole) := by
  rw [IsPart, toList_dropReturns, toList_dropReturns]
  exact List.IsInfix.filter _ h

/-- Without carriage returns there are none to drop. -/
theorem dropReturns_dropReturns (s : String) : dropReturns (dropReturns s) = dropReturns s := by
  apply String.toList_injective
  simp

end Text

end LineScript
