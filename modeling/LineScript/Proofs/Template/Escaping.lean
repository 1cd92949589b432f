import LineScript.Proofs.Template.Joining

/-!
# Texts written as templates

Every text can be written so that it comes out as itself, whatever the variables are: `escape`
spells line breaks, spaces and signs as references. A sign is `$$`, but before an `n` or an `s` this
would be another reference; there `$_`, which stands for nothing, keeps them apart.
-/

namespace LineScript.Template

/-- How a character is written in front of a text. -/
def escaped (c : Char) (rest : List Char) : List Char :=
  if c = '\n' then ['$', '$', 'n']
  else if c = ' ' then ['$', '$', 's']
  else if c = '$' then
    if 'n' ∈ rest.head? ∨ 's' ∈ rest.head? then ['$', '$', '$', '_'] else ['$', '$']
  else [c]

/-- A template for a text. -/
def escape : List Char → List Char
  | [] => []
  | c :: rest => escaped c rest ++ escape rest

/-- What is written is the character itself, or begins with the sign. -/
theorem escaped_cases (c : Char) (rest : List Char) :
    escaped c rest = [c] ∧ c ≠ '\n' ∧ c ≠ ' ' ∧ c ≠ '$' ∨
      ∃ tail, escaped c rest = '$' :: tail ∧ ∀ x ∈ tail, x ∈ ['$', 'n', 's', '_'] := by
  unfold escaped
  split_ifs with line space sign apart
  · exact .inr ⟨_, rfl, by simp⟩
  · exact .inr ⟨_, rfl, by simp⟩
  · exact .inr ⟨_, rfl, by simp⟩
  · exact .inr ⟨_, rfl, by simp⟩
  · exact .inl ⟨rfl, line, space, sign⟩

theorem head?_of_head?_escape {c : Char} {cs : List Char} (first : c ∈ (escape cs).head?)
    (plain : c ≠ '$') : c ∈ cs.head? := by
  cases cs with
  | nil => cases first
  | cons x rest =>
    rw [escape] at first
    rcases escaped_cases x rest with ⟨here, -⟩ | ⟨tail, here, -⟩
    · simpa [here] using first
    · rw [here] at first
      exact absurd (Option.some.inj first).symm plain

/-- What is written is from the text or stands in a reference. -/
theorem mem_escape {c : Char} {cs : List Char} (mem : c ∈ escape cs) :
    c ∈ cs ∧ c ≠ '\n' ∧ c ≠ ' ' ∨ c ∈ ['$', 'n', 's', '_'] := by
  induction cs with
  | nil => cases mem
  | cons x rest ih =>
    rcases List.mem_append.mp mem with here | later
    · rcases escaped_cases x rest with ⟨same, line, space, -⟩ | ⟨tail, signed, known⟩
      · obtain rfl : c = x := by simpa [same] using here
        exact .inl ⟨List.mem_cons_self, line, space⟩
      · rw [signed] at here
        rcases List.mem_cons.mp here with rfl | inside
        · exact .inr (by simp)
        · exact .inr (known c inside)
    · rcases ih later with ⟨old, apart⟩ | known
      · exact .inl ⟨List.mem_cons_of_mem x old, apart⟩
      · exact .inr known

/-- Where a letter keeps the references apart, they end. -/
theorem nothing_fits_escape {cs : List Char} (letter : 'n' ∈ cs.head? ∨ 's' ∈ cs.head?) :
    Piece.nothing.Fits (escape cs) := by
  have first : ∀ c, c ∈ (escape cs).head? → c ≠ '$' → c = 'n' ∨ c = 's' := by
    intro c here plain
    have head := head?_of_head?_escape here plain
    rcases letter with n | s
    · exact .inl (Option.mem_unique head n)
    · exact .inr (Option.mem_unique head s)
  constructor
  · rintro ⟨after, eq⟩
    exact absurd (first 'P' (by rw [← eq]; rfl) (by decide)) (by decide)
  · rintro ⟨after, eq⟩
    exact absurd (first 'E' (by rw [← eq]; rfl) (by decide)) (by decide)

theorem dollar_fits_escape {cs : List Char} (apart : ¬ ('n' ∈ cs.head? ∨ 's' ∈ cs.head?)) :
    Piece.dollar.Fits (escape cs) := by
  intro c first
  constructor
  · rintro rfl
    exact apart (.inl (head?_of_head?_escape first (by decide)))
  · rintro rfl
    exact apart (.inr (head?_of_head?_escape first (by decide)))

variable {lookup : String → Option String}

theorem filled_escape (cs : List Char) : filled lookup (escape cs) = cs := by
  induction cs with
  | nil => exact filled_nil
  | cons c rest ih =>
    rw [escape, escaped]
    split_ifs with line space sign letter
    · have newline : Piece.newline.Fits (escape rest) := trivial
      have written := filled_spelling lookup newline
      rw [fill_newline, ih] at written
      exact written.trans (by rw [line, List.singleton_append])
    · have blank : Piece.space.Fits (escape rest) := trivial
      have written := filled_spelling lookup blank
      rw [fill_space, ih] at written
      exact written.trans (by rw [space, List.singleton_append])
    · have after := filled_spelling lookup (nothing_fits_escape letter)
      -- What follows the first two signs is another sign, no letter.
      have dollar : Piece.dollar.Fits (Piece.nothing.spelling ++ escape rest) := by
        intro x first
        obtain rfl : '$' = x := Option.some.inj first
        decide
      have written := filled_spelling lookup dollar
      rw [fill_dollar, after, fill_nothing, ih] at written
      exact written.trans (by rw [sign, List.nil_append, List.singleton_append])
    · have written := filled_spelling lookup (dollar_fits_escape letter)
      rw [fill_dollar, ih] at written
      exact written.trans (by rw [sign, List.singleton_append])
    · rw [List.singleton_append, filled_cons_of_ne sign, ih]

/-! ## Templates for texts -/

/-- A template for a text: it has no line breaks and no spaces, and comes out as the text. -/
def quote (text : String) : String :=
  String.ofList (escape text.toList)

@[simp] theorem toList_quote (text : String) : (quote text).toList = escape text.toList :=
  String.toList_ofList

@[simp] theorem expand_quote (text : String) : expand lookup (quote text) = text := by
  apply String.toList_injective
  simp [filled_escape]

theorem space_notMem_quote (text : String) : ' ' ∉ (quote text).toList := by
  intro mem
  rw [toList_quote] at mem
  rcases mem_escape mem with ⟨-, -, apart⟩ | known
  · exact apart rfl
  · simp at known

theorem lineFeed_notMem_quote (text : String) : '\n' ∉ (quote text).toList := by
  intro mem
  rw [toList_quote] at mem
  rcases mem_escape mem with ⟨-, apart, -⟩ | known
  · exact apart rfl
  · simp at known

theorem return_notMem_quote {text : String} (free : '\r' ∉ text.toList) :
    '\r' ∉ (quote text).toList := by
  intro mem
  rw [toList_quote] at mem
  rcases mem_escape mem with ⟨old, -⟩ | known
  · exact free old
  · simp at known

/-- Before an n or an s a sign takes two references. -/
example : quote "a $name $$ $x" = "a$$s$$$_name$$s$$$$$$s$$x" := by decide +kernel

end LineScript.Template
