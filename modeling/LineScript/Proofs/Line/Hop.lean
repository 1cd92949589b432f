import LineScript.Proofs.Line.Storage
import LineScript.Proofs.Number.Integer

/-!
# Lines by number and by distance

`goto` is told a line by its number, from one, and `skip` by how far it is away. What they come to
is one thing, `hop`: it depends on the line alone, not on how the line is told, and is the same in
words of 64 bits, where each sum and each conversion is checked. A number that is too large to be
read is no line of a script.
-/

namespace LineScript.Line

open Builtin Number

/-! ## What the commands ask for -/

section

variable {α : Type} (nested : Evaluator) (ctx : Context) (ws : Workspace)

theorem perform_integer_bind (args : List String) (i : Nat) (f : Option Int → Step α) :
    perform nested (integer? args i >>= f).run ctx ws =
      perform nested
        (f (integerOfText? (Template.expand (ctx.lookup ws) (arg args i)))).run ctx ws :=
  rfl

theorem perform_instanceName_bind (f : Option String → Step α) :
    perform nested (Step.instanceName >>= f).run ctx ws =
      perform nested (f (ctx.owner.map (·.name))).run ctx ws :=
  rfl

theorem perform_currentIndex_bind (f : Nat → Step α) :
    perform nested (Step.currentIndex >>= f).run ctx ws =
      perform nested (f ctx.currentIndex).run ctx ws :=
  rfl

theorem perform_source_bind (f : List String → Step α) :
    perform nested (Step.source >>= f).run ctx ws = perform nested (f ctx.source).run ctx ws :=
  rfl

theorem perform_need_bind {β : Type} (value : β) (f : β → Step α) :
    perform nested (Step.need (some value) >>= f).run ctx ws =
      perform nested (f value).run ctx ws :=
  rfl

section

variable {args : List String}

/-- A line of the script is taken by its number. -/
theorem perform_targetLine_bind {line : Int}
    (read : integerOfText? (Template.expand (ctx.lookup ws) (arg args 0)) = some line)
    (inside : 1 ≤ line ∧ line ≤ ctx.source.length) (f : Nat → Step α) :
    perform nested (targetLine args >>= f).run ctx ws =
      perform nested (f (line - 1).toNat).run ctx ws := by
  simp only [targetLine, bind_assoc, perform_integer_bind]
  rw [read, perform_need_bind, perform_source_bind, if_pos inside]
  rfl

/-- Any other number is a misuse, and so is what is read as none. -/
theorem perform_targetLine_bind_of_outside
    (outside : ∀ line ∈ integerOfText? (Template.expand (ctx.lookup ws) (arg args 0)),
      ¬ (1 ≤ line ∧ line ≤ ctx.source.length)) (f : Nat → Step α) :
    perform nested (targetLine args >>= f).run ctx ws = .done (.error .usage, ctx) ws := by
  simp only [targetLine, bind_assoc, perform_integer_bind]
  cases read : integerOfText? (Template.expand (ctx.lookup ws) (arg args 0)) with
  | none => rfl
  | some line =>
    rw [perform_need_bind, perform_source_bind, if_neg (outside line read)]
    rfl

end

theorem perform_jump (target : Nat) :
    perform nested (discard (Step.jump target)).run ctx ws =
      .done (.ok (), (ctx.goTo target).2) ws :=
  rfl

/-- A whole number as it is written holds no reference. -/
theorem expand_toString (lookup : String → Option String) (n : Int) :
    Template.expand lookup (toString n) = toString n := by
  apply Template.expand_of_free
  have noDigit : '$' ∉ Nat.toDigits 10 n.natAbs := notMem_toDigits (by decide)
  rw [toString_eq_ofList, String.toList_ofList]
  intro mem
  split at mem
  · exact (List.mem_cons.mp mem).elim (by decide) noDigit
  · exact noDigit mem

end

/-! ## Going to a line -/

/-- What it comes to to go to a line of a script, counted from zero. -/
def hop (counter length : Nat) (target : Int) : Except Fault Nat :=
  if target < 0 ∨ length ≤ target then .error .usage
  else if target = counter then .error .gotoSameLine
  else .ok target.toNat

/-- How a command ends that goes to a line, and the context after it. -/
def afterHop (ctx : Context) : Except Fault Nat → Except Fault Unit × Context
  | .ok target => (.ok (), { ctx with jump := some target })
  | .error fault => (.error fault, ctx)

section

variable {counter length : Nat} {target : Int}

theorem hop_eq_ok_iff {line : Nat} :
    hop counter length target = .ok line ↔ target ≠ counter ∧ line < length ∧ target = line := by
  unfold hop
  split_ifs with outside same
  · simp only [false_iff]
    omega
  · simp only [false_iff]
    omega
  · rw [Except.ok.injEq]
    omega

theorem hop_eq_usage_iff :
    hop counter length target = .error .usage ↔ ¬ (0 ≤ target ∧ target < length) := by
  unfold hop
  split_ifs with outside same
  · simp only [true_iff]
    omega
  · simp only [Except.error.injEq, reduceCtorEq, false_iff]
    omega
  · simp only [false_iff]
    omega

theorem hop_eq_sameLine_iff (inside : counter < length) :
    hop counter length target = .error .gotoSameLine ↔ target = counter := by
  unfold hop
  split_ifs with outside same
  · simp only [Except.error.injEq, reduceCtorEq, false_iff]
    omega
  · simp only [same]
  · simp only [same]

end

section

variable {ctx : Context} {i : Instance} (owned : ctx.owner = some i) (nested : Evaluator)
  (ws : Workspace) (short : i.source.length ≤ largestExact)
include owned

theorem currentIndex_of_owned : ctx.currentIndex = i.counter := by
  rw [Context.currentIndex, owned]

theorem source_of_owned : ctx.source = i.source := by
  rw [Context.source, owned]

theorem perform_jump_inside {target : Nat} (inside : target < i.source.length) :
    perform nested (discard (Step.jump target)).run ctx ws =
      .done (afterHop ctx (.ok target)) ws := by
  have reached : ctx.goTo target = (true, { ctx with jump := some target }) := by
    unfold Context.goTo
    split
    case h_1 owner eq =>
      cases owned.symm.trans eq
      rw [if_pos inside]
    case h_2 eq => cases owned.symm.trans eq
  rw [perform_jump, reached]
  rfl

include short

theorem perform_skip (inside : i.counter < i.source.length) {n : Int}
    (exact : n.natAbs ≤ largestExact) :
    perform nested (skip.run [toString n]).run ctx ws =
      .done (afterHop ctx (hop i.counter i.source.length (i.counter + n))) ws := by
  -- The index is far below those that stand for negative numbers.
  have index : signedIndex ctx.currentIndex = i.counter := by
    rw [currentIndex_of_owned owned]
    exact signedIndex_of_lt (by simp only [largestExact] at short; omega)
  simp only [skip, perform_instanceName_bind, owned, Option.map_some, perform_integer_bind]
  rw [show arg [toString n] 0 = toString n from rfl, expand_toString, integerOfText?_toString,
    if_pos exact, perform_need_bind, perform_currentIndex_bind, perform_source_bind, index,
    source_of_owned owned, hop]
  by_cases outside : (i.counter + n : Int) < 0 ∨ i.source.length ≤ (i.counter + n : Int)
  · rw [if_pos outside, if_pos outside]
    rfl
  · rw [if_neg outside, if_neg outside]
    by_cases still : n = 0
    · rw [if_pos still, if_pos (by omega)]
      rfl
    · rw [if_neg still, if_neg (by omega)]
      exact perform_jump_inside owned nested ws (by omega)

theorem perform_goto (line : Int) :
    perform nested (goto.run [toString line]).run ctx ws =
      .done (afterHop ctx (hop i.counter i.source.length (line - 1))) ws := by
  have read : integerOfText? (Template.expand (ctx.lookup ws) (arg [toString line] 0)) =
      if line.natAbs ≤ largestExact then some line else none := by
    rw [show arg [toString line] 0 = toString line from rfl, expand_toString,
      integerOfText?_toString]
  simp only [goto, perform_instanceName_bind, owned, Option.map_some]
  by_cases outside : line - 1 < 0 ∨ i.source.length ≤ line - 1
  · rw [hop, if_pos outside, perform_targetLine_bind_of_outside]
    · rfl
    · intro number eq
      obtain ⟨-, same⟩ := Option.ite_none_right_eq_some.mp (read.symm.trans eq)
      cases same
      rw [source_of_owned owned]
      omega
  · -- No line is so far down that its number is not read.
    rw [if_pos (by omega)] at read
    have taken : 1 ≤ line ∧ line ≤ ctx.source.length := by
      rw [source_of_owned owned]
      omega
    rw [perform_targetLine_bind nested ctx ws read taken, perform_currentIndex_bind,
      currentIndex_of_owned owned, hop, if_neg outside]
    by_cases same : line - 1 = i.counter
    · rw [if_pos same, if_pos (by omega)]
      rfl
    · rw [if_neg same, if_neg (by omega)]
      exact perform_jump_inside owned nested ws (by omega)

end

/-! ## In words of 64 bits -/

/-- A number as a word with a sign, if it is one. -/
def signedWord? (n : Int) : Option Int :=
  if -9223372036854775808 ≤ n ∧ n < 9223372036854775808 then some n else none

/-- A number as a word without a sign, if it is one. -/
def word? (n : Int) : Option Nat :=
  if 0 ≤ n ∧ n < UInt64.size then some n.toNat else none

/-- What `skip` comes to in words; nothing, if a sum or a conversion is not exact. The line that the
script is on is turned into a signed word and the amount is added to it. -/
def skipInWords? (counter length : Nat) (amount : Int) : Option (Except Fault Nat) := do
  let index ← signedWord? counter
  let target ← signedWord? (index + amount)
  if target < 0 then return .error .usage
  let line ← word? target
  if length ≤ line then return .error .usage
  if amount = 0 then return .error .gotoSameLine
  return .ok line

/-- What `goto` comes to in words; nothing, if a difference or a conversion is not exact. -/
def gotoInWords? (counter length : Nat) (line : Int) : Option (Except Fault Nat) := do
  if line < 1 then return .error .usage
  let number ← word? line
  if length < number then return .error .usage
  let before ← signedWord? (line - 1)
  let target ← word? before
  if target = counter then return .error .gotoSameLine
  return .ok target

section

variable {n : Int}

theorem signedWord?_of_lt (low : -9223372036854775808 ≤ n) (high : n < 9223372036854775808) :
    signedWord? n = some n :=
  if_pos ⟨low, high⟩

theorem word?_of_lt (low : 0 ≤ n) (high : n < 9223372036854775808) : word? n = some n.toNat :=
  if_pos ⟨low, by simp only [UInt64.size]; omega⟩

variable {counter length : Nat} (short : length ≤ largestExact) (exact : n.natAbs ≤ largestExact)
include short exact

theorem skipInWords?_eq (inside : counter < length) :
    skipInWords? counter length n = some (hop counter length (counter + n)) := by
  simp only [largestExact] at short exact
  simp only [skipInWords?, hop, Option.bind_eq_bind]
  rw [signedWord?_of_lt (by omega) (by omega), Option.bind_some,
    signedWord?_of_lt (by omega) (by omega), Option.bind_some]
  by_cases back : (counter + n : Int) < 0
  · rw [if_pos back, if_pos (.inl back)]
    rfl
  · rw [if_neg back, word?_of_lt (by omega) (by omega), Option.bind_some]
    by_cases beyond : length ≤ (counter + n : Int)
    · rw [if_pos (by omega), if_pos (.inr beyond)]
      rfl
    · rw [if_neg (by omega), if_neg (not_or.mpr ⟨back, beyond⟩)]
      by_cases still : n = 0
      · rw [if_pos still, if_pos (by omega)]
        rfl
      · rw [if_neg still, if_neg (by omega)]
        rfl

theorem gotoInWords?_eq : gotoInWords? counter length n = some (hop counter length (n - 1)) := by
  simp only [largestExact] at short exact
  simp only [gotoInWords?, hop, Option.bind_eq_bind]
  by_cases low : n < 1
  · rw [if_pos low, if_pos (by omega)]
    rfl
  · rw [if_neg low, word?_of_lt (by omega) (by omega), Option.bind_some]
    by_cases beyond : length < n.toNat
    · rw [if_pos beyond, if_pos (by omega)]
      rfl
    · rw [if_neg beyond, signedWord?_of_lt (by omega) (by omega), Option.bind_some,
        word?_of_lt (by omega) (by omega), Option.bind_some,
        if_neg (show ¬ (n - 1 < 0 ∨ length ≤ n - 1) by omega)]
      by_cases same : (n - 1).toNat = counter
      · rw [if_pos same, if_pos (by omega)]
        rfl
      · rw [if_neg same, if_neg (by omega)]
        rfl

end

/-- To go on by a distance and to go to the line at that distance by its number is the same. -/
theorem skip_and_goto_agree (nested : Evaluator) (ctx : Context) (ws : Workspace) (i : Instance)
    (owned : ctx.owner = some i) (inside : i.counter < i.source.length)
    (short : i.source.length < 2 ^ 53) (n : Int) (exact : n.natAbs ≤ 2 ^ 53 - 1) :
    ∃ outcome : Except Fault Nat,
      perform nested (skip.run [toString n]).run ctx ws = .done (afterHop ctx outcome) ws ∧
      perform nested (goto.run [toString (i.counter + 1 + n)]).run ctx ws =
        .done (afterHop ctx outcome) ws ∧
      (∀ line, outcome = .ok line ↔
        n ≠ 0 ∧ line < i.source.length ∧ (line : Int) = i.counter + n) ∧
      (outcome = .error .gotoSameLine ↔ n = 0) ∧
      (outcome = .error .usage ↔ ¬ (0 ≤ i.counter + n ∧ i.counter + n < i.source.length)) ∧
      skipInWords? i.counter i.source.length n = some outcome ∧
      ∀ line ∈ integerOfText? (toString (i.counter + 1 + n)),
        gotoInWords? i.counter i.source.length line = some outcome := by
  have fits : i.source.length ≤ largestExact := Nat.le_of_lt_succ short
  refine ⟨hop i.counter i.source.length (i.counter + n),
    perform_skip owned nested ws fits inside exact, ?_, ?_, ?_, hop_eq_usage_iff,
    skipInWords?_eq fits exact inside, ?_⟩
  · have told := perform_goto owned nested ws fits (i.counter + 1 + n)
    rwa [show (i.counter + 1 + n - 1 : Int) = i.counter + n by omega] at told
  · intro line
    rw [hop_eq_ok_iff]
    omega
  · rw [hop_eq_sameLine_iff inside]
    omega
  · intro line read
    rw [integerOfText?_toString] at read
    obtain ⟨small, same⟩ := Option.ite_none_right_eq_some.mp read
    cases same
    rw [gotoInWords?_eq fits small,
      show (i.counter + 1 + n - 1 : Int) = i.counter + n by omega]

/-- From the last of three lines two lines back is the first. -/
theorem two_lines_back_is_the_first_line :
    let i : Instance :=
      { name := "a", source := ["", "", "skip -2"], counter := 2, generation := 0, batch := 0 }
    let ctx : Context := { line := "skip -2", owner := some i }
    2 < i.source.length ∧ i.source.length < 2 ^ 53 ∧ (-2 : Int).natAbs ≤ 2 ^ 53 - 1 ∧
      perform (fun _ _ _ _ _ => .endless) (skip.run ["-2"]).run ctx .isolated =
        .done (.ok (), { ctx with jump := some 0 }) .isolated ∧
      perform (fun _ _ _ _ _ => .endless) (goto.run ["1"]).run ctx .isolated =
        .done (.ok (), { ctx with jump := some 0 }) .isolated := by
  intro i ctx
  obtain ⟨outcome, skips, goes, hops, -⟩ := skip_and_goto_agree (fun _ _ _ _ _ => .endless) ctx
    .isolated i rfl (by decide) (by decide) (-2) (by decide)
  have first : outcome = .ok 0 := (hops 0).mpr (by decide)
  have distance : toString (-2 : Int) = "-2" := rfl
  have number : toString (i.counter + 1 + -2 : Int) = "1" := by
    rw [show (i.counter + 1 + -2 : Int) = 1 from rfl]
    rfl
  rw [first, distance] at skips
  rw [first, number] at goes
  exact ⟨by decide, by decide, by decide, skips, goes⟩

end LineScript.Line
