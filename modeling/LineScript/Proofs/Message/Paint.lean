import LineScript.Message.Render
import LineScript.Proofs.Number.Integer
import Mathlib.Data.List.DropRight

/-!
# Painted text

A text with terminal colours is the plain text between two escapes: one that sets the colours and
one that resets them. Without its escapes it is the plain text again. The line feeds at the end of
the text stay behind the last escape, and a text without a colour that can be read has no escapes at
all.
-/

namespace LineScript

/-! ## Without escapes -/

/-- What follows an escape that a text begins with: a bracket and anything up to an `m`. -/
def afterEscape? : List Char → Option (List Char)
  | '\x1b' :: '[' :: rest => (rest.dropWhile (· != 'm')).tail?
  | _ => none

theorem length_lt_of_afterEscape? {cs after : List Char} (eq : afterEscape? cs = some after) :
    after.length < cs.length := by
  unfold afterEscape? at eq
  split at eq
  case h_1 rest =>
    cases found : rest.dropWhile (· != 'm') with
    | nil =>
      rw [found] at eq
      cases eq
    | cons c later =>
      rw [found] at eq
      cases eq
      have shorter := (List.dropWhile_suffix (· != 'm') (l := rest)).length_le
      rw [found] at shorter
      simp only [List.length_cons] at shorter ⊢
      omega
  case h_2 => cases eq

/-- A text without its escapes. -/
def withoutEscapes : List Char → List Char
  | [] => []
  | c :: rest =>
    match _found : afterEscape? (c :: rest) with
    | some after => withoutEscapes after
    | none => c :: withoutEscapes rest
termination_by cs => cs.length
decreasing_by
  · exact length_lt_of_afterEscape? _found
  · exact Nat.lt_succ_self _

theorem withoutEscapes_of_ne {c : Char} (plain : c ≠ '\x1b') (rest : List Char) :
    withoutEscapes (c :: rest) = c :: withoutEscapes rest := by
  rw [withoutEscapes]
  split
  case h_1 after eq =>
    unfold afterEscape? at eq
    split at eq
    case h_1 whole => exact absurd (List.cons.inj whole).1 plain
    case h_2 => cases eq
  case h_2 => rfl

theorem withoutEscapes_append {cs : List Char} (free : '\x1b' ∉ cs) (rest : List Char) :
    withoutEscapes (cs ++ rest) = cs ++ withoutEscapes rest := by
  induction cs with
  | nil => rfl
  | cons c cs ih =>
    have first : c ≠ '\x1b' := fun eq => free (eq ▸ List.mem_cons_self ..)
    rw [List.cons_append, withoutEscapes_of_ne first,
      ih fun mem => free (List.mem_cons_of_mem c mem), List.cons_append]

theorem withoutEscapes_of_free {cs : List Char} (free : '\x1b' ∉ cs) : withoutEscapes cs = cs := by
  have alone := withoutEscapes_append free []
  rwa [List.append_nil, withoutEscapes, List.append_nil] at alone

theorem withoutEscapes_escape {codes : List Char} (unended : 'm' ∉ codes) (rest : List Char) :
    withoutEscapes ('\x1b' :: '[' :: (codes ++ 'm' :: rest)) = withoutEscapes rest := by
  have skipped : afterEscape? ('\x1b' :: '[' :: (codes ++ 'm' :: rest)) = some rest := by
    have inside : ∀ c ∈ codes, (c != 'm') = true := by
      intro c mem
      exact bne_iff_ne.mpr fun eq => unended (eq ▸ mem)
    rw [afterEscape?, List.dropWhile_append_of_pos inside, List.dropWhile_cons_of_neg (by decide)]
    rfl
  rw [withoutEscapes]
  split
  case h_1 after eq => cases skipped.symm.trans eq; rfl
  case h_2 eq => cases skipped.symm.trans eq

/-! ## The line feeds at the end -/

/-- The longest part at the end of a text that is line feeds only. -/
def IsTail (text tail : List Char) : Prop :=
  tail <:+ text ∧ (∀ c ∈ tail, c = '\n') ∧
    ∀ other, other <:+ text → (∀ c ∈ other, c = '\n') → other <:+ tail

/-- The line feeds at the end of a text. -/
def finalFeeds (text : String) : String :=
  String.ofList (text.toList.rtakeWhile (· == '\n'))

/-- What stands before the line feeds at the end. -/
def beforeFeeds (text : String) : String :=
  String.ofList (text.toList.rdropWhile (· == '\n'))

section

variable (text : String)

theorem beforeFeeds_append_finalFeeds : beforeFeeds text ++ finalFeeds text = text := by
  apply String.toList_injective
  rw [beforeFeeds, finalFeeds, String.toList_append, String.toList_ofList, String.toList_ofList,
    List.rdropWhile_append_rtakeWhile]

theorem eq_of_mem_finalFeeds {c : Char} (mem : c ∈ (finalFeeds text).toList) : c = '\n' := by
  rw [finalFeeds, String.toList_ofList] at mem
  exact eq_of_beq (List.mem_rtakeWhile_imp (p := (· == '\n')) mem)

theorem isTail_finalFeeds : IsTail text.toList (finalFeeds text).toList := by
  refine ⟨?_, fun c => eq_of_mem_finalFeeds text, ?_⟩
  · rw [finalFeeds, String.toList_ofList]
    exact List.rtakeWhile_suffix _ _
  · intro other ends feeds
    obtain ⟨front, eq⟩ := ends
    have all : ∀ c ∈ other.reverse, (c == '\n') = true := by
      intro c mem
      exact beq_iff_eq.mpr (feeds c (List.mem_reverse.mp mem))
    rw [finalFeeds, String.toList_ofList, ← eq, List.rtakeWhile, List.reverse_append,
      List.takeWhile_append_of_pos all, List.reverse_append, List.reverse_reverse]
    exact List.suffix_append _ other

theorem splitTail_eq :
    Style.splitTail text.toList = ((beforeFeeds text).toList, (finalFeeds text).toList) := by
  have feeds : text.toList.reverse.takeWhile (· == '\n') =
      List.replicate (text.toList.reverse.takeWhile (· == '\n')).length '\n' := by
    refine List.eq_replicate_iff.mpr ⟨rfl, fun c mem => ?_⟩
    exact eq_of_beq (List.mem_takeWhile_imp (p := (· == '\n')) mem)
  -- Line feeds in reverse are the same line feeds.
  rw [Style.splitTail, beforeFeeds, finalFeeds, String.toList_ofList, String.toList_ofList,
    List.rdropWhile, List.rtakeWhile, feeds, List.reverse_replicate]

end

/-! ## Codes of colours -/

namespace Color

/-- The channels as a terminal takes them. -/
def channels (color : Color) : String :=
  toString color.red ++ ";" ++ toString color.green ++ ";" ++ toString color.blue

theorem code_eq (place : String) (color : Color) :
    color.code place = place ++ ";2;" ++ color.channels := by
  simp only [code, channels, String.append_assoc]

/-- The codes for the colour of the characters and the colour behind them, if there is one. -/
def codes? : Option Color → Option Color → Option String
  | none, none => none
  | some front, none => some ("38;2;" ++ front.channels)
  | none, some back => some ("48;2;" ++ back.channels)
  | some front, some back => some ("38;2;" ++ front.channels ++ ";48;2;" ++ back.channels)

theorem letter_notMem_channels (color : Color) : 'm' ∉ color.channels.toList := by
  have digits (n : Nat) : 'm' ∉ Nat.toDigits 10 n := Number.notMem_toDigits (by decide)
  simp [channels, digits]

theorem letter_notMem_codes? {front back : Option Color} {codes : String}
    (eq : codes? front back = some codes) : 'm' ∉ codes.toList := by
  cases front with
  | none =>
    cases back with
    | none => cases eq
    | some back =>
      cases eq
      simp [letter_notMem_channels]
  | some front =>
    cases back with
    | none =>
      cases eq
      simp [letter_notMem_channels]
    | some back =>
      cases eq
      simp [letter_notMem_channels]

end Color

namespace Style

/-- The codes that a style comes to. -/
def codes? (s : Style) : Option String :=
  Color.codes? (s.color.bind Color.ofText?) (s.background.bind Color.ofText?)

theorem codes?_eq (s : Style) :
    s.codes? = match s.codes with
      | [] => none
      | codes => some (String.intercalate ";" codes) := by
  unfold codes codes?
  dsimp only
  cases s.color.bind Color.ofText? with
  | none =>
    cases s.background.bind Color.ofText? with
    | none => rfl
    | some back =>
      show _ = some (String.intercalate ";" [back.code "48"])
      rw [String.intercalate_singleton, Color.code_eq]
      rfl
  | some front =>
    cases s.background.bind Color.ofText? with
    | none =>
      show _ = some (String.intercalate ";" [front.code "38"])
      rw [String.intercalate_singleton, Color.code_eq]
      rfl
    | some back =>
      show _ = some (String.intercalate ";" [front.code "38", back.code "48"])
      rw [String.intercalate_cons_cons, String.intercalate_singleton, Color.code_eq, Color.code_eq,
        Color.codes?, show ";48;2;" = ";" ++ ("48" ++ ";2;") from rfl]
      simp only [String.append_assoc]
      rfl

theorem codes?_isSome_iff (s : Style) :
    s.codes?.isSome ↔ (∃ name ∈ s.color, ∃ color, Color.ofText? name = some color) ∨
      ∃ name ∈ s.background, ∃ color, Color.ofText? name = some color := by
  have read (value : Option String) : (value.bind Color.ofText?).isSome ↔
      ∃ name ∈ value, ∃ color, Color.ofText? name = some color := by
    cases value <;> simp [Option.isSome_iff_exists]
  rw [codes?, ← read, ← read]
  cases s.color.bind Color.ofText? <;> cases s.background.bind Color.ofText? <;>
    simp [Color.codes?]

section

variable {s : Style} {text : String}

theorem paint_of_none (uncolored : s.codes? = none) : s.paint text = text := by
  rw [codes?_eq] at uncolored
  cases listed : s.codes with
  | nil => rw [paint, listed]
  | cons first others =>
    rw [listed] at uncolored
    cases uncolored

theorem paint_of_some {codes : String} (colored : s.codes? = some codes) :
    s.paint text =
      "\x1b[" ++ codes ++ "m" ++ beforeFeeds text ++ "\x1b[0m" ++ finalFeeds text := by
  rw [codes?_eq] at colored
  rw [paint, splitTail_eq]
  cases listed : s.codes with
  | nil =>
    rw [listed] at colored
    cases colored
  | cons first others =>
    rw [listed] at colored
    cases colored
    dsimp only
    rw [String.ofList_toList, String.ofList_toList]

theorem withoutEscapes_paint (plain : '\x1b' ∉ text.toList) :
    withoutEscapes (s.paint text).toList = text.toList := by
  cases colored : s.codes? with
  | none => rw [paint_of_none colored, withoutEscapes_of_free plain]
  | some codes =>
    have whole : (beforeFeeds text).toList ++ (finalFeeds text).toList = text.toList := by
      rw [← String.toList_append, beforeFeeds_append_finalFeeds]
    have body : '\x1b' ∉ (beforeFeeds text).toList := fun mem =>
      plain (whole ▸ List.mem_append_left _ mem)
    have tail : '\x1b' ∉ (finalFeeds text).toList := fun mem =>
      plain (whole ▸ List.mem_append_right _ mem)
    have painted : (s.paint text).toList = '\x1b' :: '[' :: (codes.toList ++ 'm' ::
        ((beforeFeeds text).toList ++ '\x1b' :: '[' :: (['0'] ++ 'm' ::
          (finalFeeds text).toList))) := by
      rw [paint_of_some colored]
      simp
    rw [painted, withoutEscapes_escape (Color.letter_notMem_codes? colored),
      withoutEscapes_append body, withoutEscapes_escape (by decide), withoutEscapes_of_free tail,
      whole]

end

end Style

/-- A text that is shown with terminal colours is the plain text once its escapes are removed. It
has escapes exactly if one of its two colours can be read. Then it begins with the escape that sets
the colours, and what follows the one that resets them is the line feeds at the end of the text. -/
theorem Message.painted_text_is_plain_text_and_colors (m : Message) (text : String) (style : Style)
    (shown : m = .output text style ∨ m = .error text style) (plain : '\x1b' ∉ text.toList) :
    ∃ painted : String, m.render? .ansi = some painted ∧ m.render? .plain = some text ∧
      withoutEscapes painted.toList = text.toList ∧
      ('\x1b' ∈ painted.toList ↔
        (∃ name ∈ style.color, ∃ color, Color.ofText? name = some color) ∨
          ∃ name ∈ style.background, ∃ color, Color.ofText? name = some color) ∧
      ('\x1b' ∈ painted.toList → ∃ codes body tail : String, style.codes? = some codes ∧
        painted = "\x1b[" ++ codes ++ "m" ++ body ++ "\x1b[0m" ++ tail ∧ text = body ++ tail ∧
          IsTail text.toList tail.toList) := by
  refine ⟨style.paint text, ?_, ?_, Style.withoutEscapes_paint plain, ?_, ?_⟩
  · rcases shown with rfl | rfl <;> rfl
  · rcases shown with rfl | rfl <;> rfl
  · rw [← Style.codes?_isSome_iff]
    cases colored : style.codes? with
    | none =>
      rw [Style.paint_of_none colored]
      simpa using plain
    | some codes =>
      rw [Style.paint_of_some colored]
      simp
  · intro escaped
    cases colored : style.codes? with
    | none =>
      rw [Style.paint_of_none colored] at escaped
      exact absurd escaped plain
    | some codes =>
      exact ⟨codes, beforeFeeds text, finalFeeds text, rfl, Style.paint_of_some colored,
        (beforeFeeds_append_finalFeeds text).symm, isTail_finalFeeds text⟩

/-- Of two colours one cannot be read; both line feeds stay outside. -/
theorem Message.painted_letter_is_plain_without_escapes :
    let style : Style := { color := some "#fff", background := some "gray" }
    let painted := "\x1b[38;2;255;255;255ma\x1b[0m\n\n"
    '\x1b' ∉ "a\n\n".toList ∧ (Message.error "a\n\n" style).render? .ansi = some painted ∧
      withoutEscapes painted.toList = "a\n\n".toList ∧ IsTail "a\n\n".toList ['\n', '\n'] := by
  intro style painted
  have plain : '\x1b' ∉ "a\n\n".toList := by decide
  obtain ⟨shown, ansi, -, stripped, -, -⟩ := painted_text_is_plain_text_and_colors
    (.error "a\n\n" style) "a\n\n" style (.inr rfl) plain
  have same : some shown = some painted := ansi.symm.trans (by decide)
  cases same
  exact ⟨plain, ansi, stripped, isTail_finalFeeds _⟩

end LineScript
