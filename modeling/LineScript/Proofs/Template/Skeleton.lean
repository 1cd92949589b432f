import LineScript.Scope
import LineScript.Template
import Mathlib.Data.List.Infix
import Mathlib.Data.List.TakeWhile

/-!
# The skeleton of a template

A text is made of pieces in one way only, if each piece ends where it has to: a literal run before
the next `$`, a name where no letter or digit follows, and `$$`, `$_` and a lone `$` where what
follows does not make another reference of them. `Piece.Fits` says so of one piece, and `Decomposes`
of a text. `parse` finds these pieces (`decomposes_parse`), and there are no others
(`parse_of_decomposes`).

So the pieces depend on the text alone, and variables only fill them. `filled_spelling` is the step
from which texts are expanded piece by piece, from left to right.
-/

namespace LineScript

/-- The value that a line finds under a name: its own, or else the global one. -/
inductive Scope.Finds (locals : Option Scope) (globals : Scope) (name : String) (value : Value) :
    Prop where
  | own {scope : Scope} (owned : locals = some scope) (bound : scope.get? name = some value)
  | shared (unbound : ∀ scope, locals = some scope → scope.get? name = none)
      (bound : globals.get? name = some value)

/-- A reference stands for a text if a text is what is found. A list or an object of the line's own
hides a global text. -/
theorem Scope.visibleText?_eq_some_iff {locals : Option Scope} {globals : Scope}
    {name text : String} :
    visibleText? locals globals name = some text ↔ Finds locals globals name (.text text) := by
  have isText : ∀ value : Value, value.text? = some text ↔ value = .text text := by
    intro value
    cases value <;> simp [Value.text?]
  constructor
  · intro h
    obtain ⟨value, seen, eq⟩ := Option.bind_eq_some_iff.mp h
    obtain rfl := (isText value).mp eq
    unfold visible? at seen
    split at seen
    · rename_i found
      cases seen
      obtain ⟨scope, owned, bound⟩ := Option.bind_eq_some_iff.mp found
      exact .own owned bound
    · rename_i missing
      refine .shared ?_ seen
      rintro scope rfl
      exact missing
  · rintro (⟨owned, bound⟩ | ⟨unbound, bound⟩)
    · simp [visibleText?, visible?, owned, bound, Value.text?]
    · have missing : locals.bind (·.get? name) = none :=
        Option.bind_eq_none_iff.mpr unbound
      simp [visibleText?, visible?, missing, bound, Value.text?]

namespace Template

/-! ## Pieces as they are written -/

/-- A letter, and letters and digits after it. -/
def IsName : List Char → Prop
  | [] => False
  | first :: others => isLetter first = true ∧ ∀ c ∈ others, isNameChar c = true

namespace Piece

/-- How a piece is written. -/
def spelling : Piece → List Char
  | .literal run => run
  | .newline => ['$', '$', 'n']
  | .space => ['$', '$', 's']
  | .dollar => ['$', '$']
  | .pi => ['$', '_', 'P', 'I']
  | .euler => ['$', '_', 'E']
  | .nothing => ['$', '_']
  | .name letters => '$' :: letters
  | .lone => ['$']

/-- The piece is one of its kind, and with this rest after it, it ends where it ends. -/
def Fits (rest : List Char) : Piece → Prop
  | .literal run => run ≠ [] ∧ '$' ∉ run ∧ ∀ c ∈ rest.head?, c = '$'
  | .newline => True
  | .space => True
  | .dollar => ∀ c ∈ rest.head?, c ≠ 'n' ∧ c ≠ 's'
  | .pi => True
  | .euler => True
  | .nothing => ¬ ['P', 'I'] <+: rest ∧ ¬ ['E'] <+: rest
  | .name letters => IsName letters ∧ ∀ c ∈ rest.head?, isNameChar c = false
  | .lone => ∀ c ∈ rest.head?, c ≠ '$' ∧ c ≠ '_' ∧ isLetter c = false

end Piece

/-- The pieces make up the text, in this order, and each ends where it has to. -/
inductive Decomposes : List Char → List Piece → Prop where
  | nil : Decomposes [] []
  | cons {piece : Piece} {rest : List Char} {pieces : List Piece} (fits : piece.Fits rest)
      (tail : Decomposes rest pieces) : Decomposes (piece.spelling ++ rest) (piece :: pieces)

/-! ## Runs of characters -/

section

variable {α : Type} {p : α → Bool} {run rest : List α}

/-- A run ends where the first character follows that does not belong to it. -/
theorem takeWhile_append_of_stops (inside : ∀ a ∈ run, p a = true)
    (stops : ∀ a ∈ rest.head?, p a = false) :
    (run ++ rest).takeWhile p = run ∧ (run ++ rest).dropWhile p = rest := by
  rw [List.takeWhile_append_of_pos inside, List.dropWhile_append_of_pos inside]
  cases rest with
  | nil => simp
  | cons a rest =>
    have here : p a = false := stops a rfl
    simp [here]

theorem stops_dropWhile (p : α → Bool) (l : List α) :
    ∀ a ∈ (l.dropWhile p).head?, p a = false := by
  intro a first
  have stops := List.head?_dropWhile_not p l
  rw [Option.mem_def.mp first] at stops
  exact stops

end

/-! ## One piece -/

/-- The reference that is read after a `$` is spelled there, and fits. -/
theorem reference_spelling (cs : List Char) :
    (reference cs).1.spelling ++ (reference cs).2 = '$' :: cs ∧
      (reference cs).1.Fits (reference cs).2 := by
  fun_cases reference cs with
  | case1 rest => exact ⟨rfl, trivial⟩
  | case2 rest => exact ⟨rfl, trivial⟩
  | case3 rest notN notS =>
    refine ⟨rfl, fun c first => ?_⟩
    obtain ⟨others, rfl⟩ := List.head?_eq_some_iff.mp first
    constructor
    · rintro rfl
      exact notN others rfl
    · rintro rfl
      exact notS others rfl
  | case4 rest => exact ⟨rfl, trivial⟩
  | case5 rest => exact ⟨rfl, trivial⟩
  | case6 rest notPi notE =>
    refine ⟨rfl, ?_, ?_⟩
    · rintro ⟨others, rfl⟩
      exact notPi others rfl
    · rintro ⟨others, rfl⟩
      exact notE others rfl
  | case7 first rest _ _ _ _ _ _ letter =>
    refine ⟨?_, ⟨letter, ?_⟩, stops_dropWhile isNameChar rest⟩
    · simp [Piece.spelling, List.takeWhile_append_dropWhile]
    · intro c mem
      exact List.mem_takeWhile_imp mem
  | case8 first rest _ _ notDollar _ _ notLine notLetter =>
    refine ⟨rfl, fun c head => ?_⟩
    obtain rfl : first = c := Option.some.inj head
    exact ⟨notDollar, notLine, by simpa using notLetter⟩
  | case9 => exact ⟨rfl, by simp [Piece.Fits]⟩

/-- A reference that is spelled after a `$`, and fits, is the one that is read there. -/
theorem reference_of_fits {piece : Piece} {rest : List Char} (fits : piece.Fits rest)
    (sign : ∀ run, piece ≠ .literal run) :
    ∃ after, piece.spelling ++ rest = '$' :: after ∧ reference after = (piece, rest) := by
  refine ⟨(piece.spelling ++ rest).tail, ?_, ?_⟩
  · cases piece with
    | literal run => exact absurd rfl (sign run)
    | _ => rfl
  cases piece with
  | literal run => exact absurd rfl (sign run)
  | dollar =>
    cases rest with
    | nil => rfl
    | cons c rest =>
      obtain ⟨notN, notS⟩ := fits c rfl
      simp [Piece.spelling, reference, notN, notS]
  | nothing =>
    have notPi : ∀ others, rest ≠ 'P' :: 'I' :: others := by
      rintro others rfl
      exact fits.1 ⟨others, rfl⟩
    have notE : ∀ others, rest ≠ 'E' :: others := by
      rintro others rfl
      exact fits.2 ⟨others, rfl⟩
    simp [Piece.spelling, reference]
  | name letters =>
    obtain ⟨isName, stops⟩ := fits
    cases letters with
    | nil => exact isName.elim
    | cons first others =>
      obtain ⟨letter, inside⟩ := isName
      -- A letter is neither `$` nor `_`, so none of the references before names is read.
      have notDollar : first ≠ '$' := by
        rintro rfl
        cases letter
      have notLine : first ≠ '_' := by
        rintro rfl
        cases letter
      obtain ⟨run, after⟩ := takeWhile_append_of_stops inside stops
      simp [Piece.spelling, reference, notDollar, notLine, letter, run, after]
  | lone =>
    cases rest with
    | nil => rfl
    | cons c rest =>
      obtain ⟨notDollar, notLine, notLetter⟩ := fits c rfl
      simp [Piece.spelling, reference, notDollar, notLine, notLetter]
  | _ => rfl

/-! ## All pieces -/

/-- The first piece of a text is the one that fits there. -/
theorem parse_spelling {piece : Piece} {rest : List Char} (fits : piece.Fits rest) :
    parse (piece.spelling ++ rest) = piece :: parse rest := by
  -- A run is no reference: it is read up to the next sign, where it has to end.
  by_cases sign : ∀ run, piece ≠ .literal run
  · obtain ⟨after, spelled, read⟩ := reference_of_fits fits sign
    rw [spelled, parse, if_pos rfl, read]
  · simp only [not_forall, not_not] at sign
    obtain ⟨run, rfl⟩ := sign
    obtain ⟨some, free, stops⟩ := fits
    cases run with
    | nil => exact absurd rfl some
    | cons c run =>
      obtain ⟨plain, others⟩ := not_or.mp (List.mem_cons.not.mp free)
      have inside : ∀ x ∈ run, (x != '$') = true := by
        intro x mem
        exact bne_iff_ne.mpr fun eq => others (eq ▸ mem)
      obtain ⟨here, after⟩ := takeWhile_append_of_stops inside (by simpa using stops)
      rw [Piece.spelling, List.cons_append, parse, if_neg (Ne.symm plain), here, after]

/-- A literal run goes on to the next `$`. -/
theorem literal_fits {c : Char} (plain : c ≠ '$') (rest : List Char) :
    (Piece.literal (c :: rest.takeWhile (· != '$'))).Fits (rest.dropWhile (· != '$')) := by
  refine ⟨List.cons_ne_nil _ _, ?_, ?_⟩
  · intro mem
    rcases List.mem_cons.mp mem with first | later
    · exact plain first.symm
    · simpa using List.mem_takeWhile_imp later
  · intro x head
    simpa using stops_dropWhile (· != '$') rest x head

theorem run_append_rest (c : Char) (rest : List Char) :
    (Piece.literal (c :: rest.takeWhile (· != '$'))).spelling ++ rest.dropWhile (· != '$') =
      c :: rest := by
  rw [Piece.spelling, List.cons_append, List.takeWhile_append_dropWhile]

theorem decomposes_parse (cs : List Char) : Decomposes cs (parse cs) := by
  fun_induction parse cs with
  | case1 => exact .nil
  | case2 rest ih =>
    obtain ⟨spelled, fits⟩ := reference_spelling rest
    rw [← spelled]
    exact .cons fits ih
  | case3 c rest plain ih =>
    rw [← run_append_rest]
    exact .cons (literal_fits plain rest) ih

theorem parse_of_decomposes {cs : List Char} {pieces : List Piece} (h : Decomposes cs pieces) :
    parse cs = pieces := by
  induction h with
  | nil => rw [parse]
  | cons fits _ ih => rw [parse_spelling fits, ih]

/-! ## Filling the pieces -/

section

variable {lookup : String → Option String}

/-- The characters of a text with its references replaced. -/
def filled (lookup : String → Option String) (cs : List Char) : List Char :=
  (parse cs).flatMap (Piece.fill lookup)

@[simp] theorem toList_expand (text : String) :
    (expand lookup text).toList = filled lookup text.toList := by
  simp [expand, filled]

@[simp] theorem filled_nil : filled lookup [] = [] := by
  rw [filled, parse, List.flatMap_nil]

/-- What a piece stands for comes before all that comes of the rest, and nothing in it is looked at
again. -/
theorem filled_spelling (lookup : String → Option String) {piece : Piece} {rest : List Char}
    (fits : piece.Fits rest) :
    filled lookup (piece.spelling ++ rest) = piece.fill lookup ++ filled lookup rest := by
  rw [filled, parse_spelling fits, List.flatMap_cons, filled]

@[simp] theorem fill_literal (run : List Char) : (Piece.literal run).fill lookup = run :=
  rfl

@[simp] theorem fill_newline : Piece.newline.fill lookup = ['\n'] :=
  rfl

@[simp] theorem fill_space : Piece.space.fill lookup = [' '] :=
  rfl

@[simp] theorem fill_dollar : Piece.dollar.fill lookup = ['$'] :=
  rfl

@[simp] theorem fill_nothing : Piece.nothing.fill lookup = [] :=
  rfl

theorem fill_name (letters : List Char) :
    (Piece.name letters).fill lookup =
      (lookup (String.ofList letters)).elim ('$' :: letters) String.toList := by
  delta Piece.fill
  dsimp only
  cases lookup (String.ofList letters) <;> rfl

/-- What `$name` becomes, where a line finds its variables: a text that is bound to the name, or the
reference itself. -/
theorem fill_name_eq_iff {locals : Option Scope} {globals : Scope} {name text : String} :
    (Piece.name name.toList).fill (Scope.visibleText? locals globals) = text.toList ↔
      Scope.Finds locals globals name (.text text) ∨
        (∀ other, ¬ Scope.Finds locals globals name (.text other)) ∧ text = "$" ++ name := by
  simp only [← Scope.visibleText?_eq_some_iff]
  cases found : Scope.visibleText? locals globals name with
  | none =>
    have spelled : ("$" ++ name).toList = '$' :: name.toList := by simp
    rw [fill_name, String.ofList_toList, found, Option.elim_none, ← spelled, String.toList_inj]
    constructor
    · rintro rfl
      exact .inr ⟨fun _ => nofun, rfl⟩
    · rintro (some | ⟨-, rfl⟩)
      · cases some
      · rfl
  | some value =>
    rw [fill_name, String.ofList_toList, found, Option.elim_some, String.toList_inj]
    constructor
    · rintro rfl
      exact .inl rfl
    · rintro (eq | ⟨none, -⟩)
      · exact Option.some.inj eq
      · exact absurd rfl (none value)

/-- Every text has one skeleton, made of the text alone, and expanding it fills the pieces of the
skeleton one after the other, each with what it stands for. A name is filled with the text that the
line finds under it. -/
theorem expand_fills_skeleton :
    (∀ text : String, ∃ skeleton,
      (∀ pieces, Decomposes text.toList pieces ↔ pieces = skeleton) ∧
      ∀ lookup, (expand lookup text).toList = skeleton.flatMap (Piece.fill lookup)) ∧
    (∀ lookup : String → Option String,
      (∀ run, (Piece.literal run).fill lookup = run) ∧
      Piece.newline.fill lookup = ['\n'] ∧ Piece.space.fill lookup = [' '] ∧
      Piece.dollar.fill lookup = ['$'] ∧ Piece.lone.fill lookup = ['$'] ∧
      Piece.pi.fill lookup = "3.141592653589793".toList ∧
      Piece.euler.fill lookup = "2.718281828459045".toList ∧
      Piece.nothing.fill lookup = [] ∧
      ∀ letters, (Piece.name letters).fill lookup =
        (lookup (String.ofList letters)).elim ('$' :: letters) String.toList) ∧
    ∀ (locals : Option Scope) (globals : Scope) (name text : String),
      (Scope.visibleText? locals globals name = some text ↔
        Scope.Finds locals globals name (.text text)) ∧
      ((Piece.name name.toList).fill (Scope.visibleText? locals globals) = text.toList ↔
        Scope.Finds locals globals name (.text text) ∨
          (∀ other, ¬ Scope.Finds locals globals name (.text other)) ∧ text = "$" ++ name) := by
  refine ⟨fun text => ?_, fun lookup => ?_, fun locals globals name text => ?_⟩
  · refine ⟨parse text.toList, fun pieces => ⟨fun decomposes => ?_, ?_⟩, fun lookup => ?_⟩
    · exact (parse_of_decomposes decomposes).symm
    · rintro rfl
      exact decomposes_parse text.toList
    · rw [toList_expand, filled]
  · exact ⟨fun _ => rfl, rfl, rfl, rfl, rfl, rfl, rfl, rfl, fill_name⟩
  · exact ⟨Scope.visibleText?_eq_some_iff, fill_name_eq_iff⟩

end

end Template

end LineScript
