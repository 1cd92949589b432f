import LineScript.Proofs.Template.Skeleton
import LineScript.Proofs.Text.Part

/-!
# Templates side by side

A `$` and what comes after it are one reference as far as the next space, and no further: whatever a
text ends in, a space after it does not change its last reference (`Piece.Fits.before_space`). So a
text can be cut at its spaces before its references are replaced or after that
(`expand_unfields`).

The fields of a line are its text cut at the spaces. `Text.after?` is what stands after some of
them, as it is written, and by `Text.map_after?_fields` the later fields put together are just that.
-/

namespace LineScript

namespace Template

variable {lookup : String → Option String}

/-! ## Runs without references -/

/-- What comes of a text up to its first `$` is what is written there. -/
theorem filled_eq_run (cs : List Char) :
    filled lookup cs =
      cs.takeWhile (· != '$') ++ filled lookup (cs.dropWhile (· != '$')) := by
  cases cs with
  | nil => simp
  | cons c rest =>
    by_cases sign : c = '$'
    · simp [sign]
    · have first := filled_spelling lookup (literal_fits sign rest)
      rw [run_append_rest] at first
      simpa [sign] using first

theorem filled_append_of_free (lookup : String → Option String) {run : List Char}
    (free : '$' ∉ run) (rest : List Char) :
    filled lookup (run ++ rest) = run ++ filled lookup rest := by
  have inside : ∀ c ∈ run, (c != '$') = true := by
    intro c mem
    exact bne_iff_ne.mpr fun eq => free (eq ▸ mem)
  rw [filled_eq_run, List.takeWhile_append_of_pos inside, List.dropWhile_append_of_pos inside,
    List.append_assoc, ← filled_eq_run]

theorem filled_cons_of_ne {c : Char} (plain : c ≠ '$') (rest : List Char) :
    filled lookup (c :: rest) = c :: filled lookup rest := by
  have free : '$' ∉ [c] := by simpa using plain.symm
  exact filled_append_of_free lookup free rest

theorem expand_of_free {text : String} (free : '$' ∉ text.toList) : expand lookup text = text := by
  apply String.toList_injective
  have alone := filled_append_of_free lookup free []
  simpa using alone

/-! ## Spaces -/

/-- A reference at the end of a text ends there still if a space follows. -/
theorem Piece.Fits.before_space {piece : Piece} {rest : List Char} (fits : piece.Fits rest)
    (sign : ∀ run, piece ≠ .literal run) (after : List Char) :
    piece.Fits (rest ++ ' ' :: after) := by
  -- What follows first is what followed before, or the space.
  have head : ∀ c ∈ (rest ++ ' ' :: after).head?, c ∈ rest.head? ∨ c = ' ' := by
    intro c first
    cases rest with
    | nil => exact .inr (Option.some.inj first).symm
    | cons x rest => exact .inl first
  cases piece with
  | literal run => exact absurd rfl (sign run)
  | dollar =>
    intro c first
    rcases head c first with here | rfl
    · exact fits c here
    · decide
  | nothing =>
    obtain ⟨notPi, notE⟩ := fits
    cases rest with
    | nil => simp [Piece.Fits]
    | cons x rest =>
      refine ⟨fun pi => notPi ?_, fun e => notE ?_⟩
      · cases rest with
        | nil => simp at pi
        | cons y rest => simpa using pi
      · simpa using e
  | name letters =>
    refine ⟨fits.1, fun c first => ?_⟩
    rcases head c first with here | rfl
    · exact fits.2 c here
    · decide
  | lone =>
    intro c first
    rcases head c first with here | rfl
    · exact fits c here
    · decide
  | _ => trivial

/-- By induction on the pieces of the left part. Its last run grows by the space, so the pieces of
the whole are not those of the two parts, but what they stand for is. -/
theorem Decomposes.filled_append_space {cs : List Char} {pieces : List Piece}
    (h : Decomposes cs pieces) (after : List Char) :
    filled lookup (cs ++ ' ' :: after) = filled lookup cs ++ ' ' :: filled lookup after := by
  induction h with
  | nil => simpa using filled_cons_of_ne (by decide) after
  | @cons piece rest pieces fits tail ih =>
    -- A reference stays as it is. A run may be cut anywhere.
    rw [List.append_assoc, filled_spelling lookup fits, List.append_assoc, ← ih]
    by_cases sign : ∀ run, piece ≠ .literal run
    · exact filled_spelling lookup (fits.before_space sign after)
    · simp only [not_forall, not_not] at sign
      obtain ⟨run, rfl⟩ := sign
      exact filled_append_of_free lookup fits.2.1 _

theorem expand_append_space (left right : String) :
    expand lookup (left ++ " " ++ right) = expand lookup left ++ " " ++ expand lookup right := by
  apply String.toList_injective
  simpa using (decomposes_parse left.toList).filled_append_space right.toList

/-- References may be replaced in each of some texts or in all of them together. -/
theorem expand_unfields (tokens : List String) :
    expand lookup (Text.unfields tokens) = Text.unfields (tokens.map (expand lookup)) := by
  induction tokens with
  | nil => exact expand_of_free (by simp [Text.unfields])
  | cons token rest ih =>
    cases rest with
    | nil => simp [Text.unfields]
    | cons next others =>
      have joined : Text.unfields ((token :: next :: others).map (expand lookup)) =
          expand lookup token ++ " " ++ Text.unfields ((next :: others).map (expand lookup)) :=
        Text.unfields_cons _ (by simp)
      rw [Text.unfields_cons token (List.cons_ne_nil next others), expand_append_space, ih, joined]

end Template

namespace Text

/-! ## Fields as they are written -/

/-- What stands after so many spaces, if there are so many. -/
def after? : Nat → List Char → Option (List Char)
  | 0, cs => some cs
  | _ + 1, [] => none
  | n + 1, c :: cs => if c = ' ' then after? n cs else after? (n + 1) cs

theorem after?_eq (n : Nat) (cs : List Char) :
    after? n cs =
      if n < (cs.splitOn ' ').length then some ([' '].intercalate ((cs.splitOn ' ').drop n))
      else none := by
  induction cs generalizing n with
  | nil => cases n <;> simp [after?]
  | cons c cs ih =>
    cases n with
    | zero =>
      have some : 0 < ((c :: cs).splitOn ' ').length :=
        List.length_pos_of_ne_nil (List.splitOn_ne_nil ' ' (c :: cs))
      rw [after?, if_pos some, List.drop_zero, List.intercalate_splitOn]
    | succ n =>
      rw [List.splitOn_cons_eq_if_modifyHead]
      by_cases space : c = ' '
      · simp [after?, space, ih n]
      · have later : ((cs.splitOn ' ').modifyHead (List.cons c)).drop (n + 1) =
            (cs.splitOn ' ').drop (n + 1) := by
          cases cs.splitOn ' ' <;> simp
        simp [after?, space, ih (n + 1), later]

/-- The fields of a line after some of them, put together again, are what is written there. -/
theorem map_after?_fields (n : Nat) (s : String) :
    (after? n s.toList).map String.ofList =
      if n < (fields s).length then some (unfields ((fields s).drop n)) else none := by
  have joined : unfields ((fields s).drop n) =
      String.ofList ([' '].intercalate ((s.toList.splitOn ' ').drop n)) := by
    apply String.toList_injective
    simp [unfields, fields, Function.comp_def]
  rw [after?_eq, joined]
  by_cases more : n < (s.toList.splitOn ' ').length <;> simp [fields, more]

/-- Fields without spaces in them are found again. -/
theorem fields_unfields {tokens : List String} (some : tokens ≠ [])
    (free : ∀ token ∈ tokens, ' ' ∉ token.toList) : fields (unfields tokens) = tokens := by
  have apart : ([' '].intercalate (tokens.map String.toList)).splitOn ' ' =
      tokens.map String.toList :=
    List.splitOn_intercalate ' ' (by simpa using free) (by simpa using some)
  simp [fields, unfields, apart, Function.comp_def]

theorem notMem_unfields {c : Char} (other : c ≠ ' ') {tokens : List String}
    (free : ∀ token ∈ tokens, c ∉ token.toList) : c ∉ (unfields tokens).toList := by
  induction tokens with
  | nil => simp [unfields]
  | cons token rest ih =>
    obtain ⟨here, later⟩ := List.forall_mem_cons.mp free
    cases rest with
    | nil => simpa [unfields] using here
    | cons next others =>
      rw [unfields_cons token (List.cons_ne_nil next others)]
      simp [here, other, ih later]

theorem head?_unfields {c : Char} {name : String} {rest : List String}
    (first : c ∈ name.toList.head?) : c ∈ (unfields (name :: rest)).toList.head? := by
  have starts : ∀ more : List Char, c ∈ (name.toList ++ more).head? := by
    intro more
    obtain ⟨others, eq⟩ := List.head?_eq_some_iff.mp first
    simp [eq]
  cases rest with
  | nil => simpa [unfields] using first
  | cons next others =>
    rw [unfields_cons name (List.cons_ne_nil next others)]
    simpa using starts (' ' :: (unfields (next :: others)).toList)

end Text

end LineScript
