import LineScript.Proofs.Command.Inquiry
import LineScript.Proofs.Line.Provenance
import LineScript.Script.Tick
import Mathlib.Data.List.NodupEquivFin

/-!
# Nests of lines

A line may evaluate a line, which may evaluate another. Which line is nested in a line depends on
the owner and the variables alone (`Line.inner?`), and nothing changes on the way down, so a nest is
what comes of following `inner?` (`Line.descent`).

* A line that `if` or `assign` evaluates is shorter than their own, and a line that `visit`
  evaluates is one of the source. So a nest in which no line of the source comes back is not deep
  (`Line.length_le`), and one in which a line of the source comes back goes on for ever.
* Evaluating a line finds no end exactly if its nest has none (`Line.endless_or_ends`). How deep
  lines may be nested has no part in it: the bound is beyond any nest that ends.

`visit` refuses the line that its script is on. It does not refuse the line that it stands in, nor
one further up, so there are nests without end (`Instance.carousel_is_endless`).
-/

namespace LineScript

/-! ## Runs that end -/

namespace Run

variable {α β : Type}

/-- However often the run has to wait, and whatever it finds then, it comes to its end if it is not
kept waiting. -/
inductive Ends : Run α → Prop where
  | done {value : α} {ws : Workspace} : Ends (.done value ws)
  | await {wait : Wait} {ws : Workspace} {next : Workspace → Run α}
      (rest : ∀ later, Ends (next later)) : Ends (.await wait ws next)

theorem Ends.ne_endless {run : Run α} (h : run.Ends) : run ≠ .endless := by
  rintro rfl
  cases h

theorem Ends.waitFor {wait : Wait} {ws : Workspace} {next : Workspace → Run α}
    (rest : ∀ later, (next later).Ends) : (Run.waitFor wait ws next).Ends := by
  unfold Run.waitFor
  split
  · exact rest ws
  · exact .await rest

theorem Ends.bind {run : Run α} {f : α → Workspace → Run β} (h : run.Ends)
    (rest : ∀ value last, (f value last).Ends) : (run.bind f).Ends := by
  induction h with
  | done => exact rest _ _
  | await _ ih => exact .await ih

/-- What comes after the run may rely on what the run leaves behind. -/
theorem Ends.bind_of_obeys {run : Run α} {f : α → Workspace → Run β}
    {E : Workspace → Workspace → Prop} {P : Workspace → α → Workspace → Prop} {ws : Workspace}
    (h : run.Ends) (obeys : run.Obeys E P ws)
    (rest : ∀ ws value last, P ws value last → (f value last).Ends) : (run.bind f).Ends := by
  induction h generalizing ws with
  | done =>
    cases obeys with
    | done final => exact rest _ _ _ final
  | await _ ih =>
    cases obeys with
    | await _ goesOn => exact .await fun later => ih later (goesOn later)

theorem bind_bind {γ : Type} (run : Run α) (f : α → Workspace → Run β)
    (g : β → Workspace → Run γ) :
    (run.bind f).bind g = run.bind fun value ws => (f value ws).bind g := by
  induction run with
  | done value ws => rfl
  | await wait ws next ih => simp only [bind, ih]
  | endless => rfl

end Run

/-! ## The line in a line -/

/-- The line that an action evaluates first, if it does so before it has to wait. -/
def Action.opening {α : Type} (ctx : Context) (ws : Workspace) : Action α → Option String
  | .ask r next =>
    let reply := ctx.answer ws r
    (next reply.1).opening reply.2.1 reply.2.2
  | .evaluate line _ _ => some line
  | _ => none

namespace Context

variable {r : Request}

/-- A question changes nothing. -/
theorem answer_question (question : r.isQuestion = true) (ctx : Context) (ws : Workspace) :
    ctx.answer ws r = ((ctx.answer ws r).1, ctx, ws) := by
  cases r with
  | currentIndex => rfl
  | source => rfl
  | instanceName => rfl
  | expand template => rfl
  | _ => cases question

/-- The answer to a question does not depend on why the line is evaluated nor on what was said. -/
theorem answer_question_congr (question : r.isQuestion = true) {ctx ctx' : Context}
    (sameLine : ctx.line = ctx'.line) (sameOwner : ctx.owner = ctx'.owner) (ws : Workspace) :
    (ctx.answer ws r).1 = (ctx'.answer ws r).1 := by
  obtain ⟨line, mode, owner⟩ := ctx
  obtain ⟨line', mode', owner'⟩ := ctx'
  obtain rfl : line = line' := sameLine
  obtain rfl : owner = owner' := sameOwner
  cases r with
  | currentIndex => rfl
  | source => rfl
  | instanceName => rfl
  | expand template => rfl
  | _ => cases question

theorem answered_question (question : r.isQuestion = true) :
    Conduct.answered .fresh r = .fresh := by
  cases r with
  | jump target => cases question
  | _ => rfl

end Context

theorem Action.opening_congr {α : Type} {action : Action α} (inquires : action.Inquires)
    (ws : Workspace) {ctx ctx' : Context} (line : ctx.line = ctx'.line)
    (owner : ctx.owner = ctx'.owner) : action.opening ctx ws = action.opening ctx' ws := by
  induction action with
  | ask r next ih =>
    rcases inquires with ⟨question, rest⟩ | last
    · simp only [opening]
      rw [Context.answer_question question ctx, Context.answer_question question ctx',
        Context.answer_question_congr question line owner]
      exact ih _ (rest _)
    · obtain ⟨value, eq⟩ := last (ctx.answer ws r).1
      obtain ⟨value', eq'⟩ := last (ctx'.answer ws r).1
      simp only [opening, eq, eq']
  | _ => rfl

namespace Line

/-- The line that a line evaluates first, by what it asks for. -/
def Reading.opening (ctx : Context) (ws : Workspace) : Reading → Option String
  | .runs command args => (command.run args).run.opening ctx ws
  | _ => none

/-- The line that a line of this owner evaluates. -/
def inner? (owner : Option Instance) (ws : Workspace) (line : String) : Option String :=
  (read ws.registry line).opening { line, owner } ws

/-- The line that is so many levels down. -/
def descent (owner : Option Instance) (ws : Workspace) : Nat → String → Option String
  | 0, line => some line
  | n + 1, line => (inner? owner ws line).bind (descent owner ws n)

section

variable {α : Type} {name raw : String} {owner : Option Instance} {s : Stage}

/-- A command that may not evaluate a line, or not any more, comes to its end. -/
theorem perform_ends (nested : Evaluator) {action : Action α} {post : Stage → α → Prop}
    (ensures : action.Ensures (conduct name raw owner) owner s post)
    (closed : ∀ code, s = .fresh → ¬ Conduct.Wrote name raw owner code)
    {ctx : Context} (mine : ctx.owner.map Instance.fixed = owner.map Instance.fixed)
    (ws : Workspace) : (perform nested action ctx ws).Ends ∧ action.opening ctx ws = none := by
  induction action generalizing s ctx ws with
  | done value => exact ⟨.done, rfl⟩
  | ask r next ih =>
    have truthful := truthful_answer mine ws r
    refine ih _ (ensures.2 _ truthful) ?_ (by rw [Context.answer_owner, mine]) _
    intro code fresh
    refine closed code ?_
    cases r with
    | jump _ => cases fresh
    | _ => exact fresh
  | evaluate code quiet next ih => exact absurd ensures.1.2 (closed code ensures.1.1)
  | sleep duration next ih =>
    exact ⟨.waitFor fun later => (ih ensures closed mine later).1, rfl⟩
  | runScripts names next ih =>
    refine ⟨?_, rfl⟩
    simp only [perform]
    split
    · exact (ih _ (ensures _) closed mine ws).1
    · exact .waitFor fun later => (ih _ (ensures _) closed mine later).1
  | readInput next ih =>
    exact ⟨.waitFor fun later => (ih _ (ensures _) closed mine _).1, rfl⟩

/-- How a command goes on that asks questions first. Either it evaluates no line, and comes to its
end; or it evaluates one, in the state in which it was begun, and comes to its end after that. -/
theorem perform_inquires (nested : Evaluator) {action : Action α} {post : Stage → α → Prop}
    (inquires : action.Inquires)
    (ensures : action.Ensures (conduct name raw owner) owner .fresh post)
    {ctx : Context} (mine : ctx.owner.map Instance.fixed = owner.map Instance.fixed)
    (ws : Workspace) :
    (perform nested action ctx ws).Ends ∧ action.opening ctx ws = none ∨
      ∃ code mode, ∃ rest : Ended → Workspace → Run (α × Context),
        action.opening ctx ws = some code ∧ Conduct.Wrote name raw owner code ∧
        perform nested action ctx ws =
          (nested mode code ctx.owner ctx.transcript ws).bind rest ∧
        ∀ e last, e.owner.map Instance.fixed = owner.map Instance.fixed → (rest e last).Ends := by
  induction action with
  | done value => exact .inl ⟨.done, rfl⟩
  | ask r next ih =>
    have goesOn := ensures.2 _ (truthful_answer mine ws r)
    rcases inquires with ⟨question, rest⟩ | last
    · have same := Context.answer_question question ctx ws
      simp only [conduct_answered, Context.answered_question question] at goesOn
      simp only [perform, Action.opening]
      rw [same]
      exact ih _ (rest _) goesOn
    · obtain ⟨value, eq⟩ := last (ctx.answer ws r).1
      refine .inl ⟨?_, ?_⟩
      · simp only [perform, eq]
        exact .done
      · simp only [Action.opening, eq]
  | evaluate code quiet next ih =>
    refine .inr ⟨code, _, _, rfl, ensures.1.2, rfl, fun e last kept => ?_⟩
    exact (perform_ends nested (ensures.2 e.evaluation) (by simp) kept last).1
  | sleep duration next _ => exact inquires.elim
  | runScripts names next _ => exact inquires.elim
  | readInput next _ => exact inquires.elim

/-! ## One level down -/

/-- The arguments of a command are shorter than its line: at least its name is missing. -/
theorem length_args_lt {line name : String} {args : List String}
    (split : Text.fields (content line) = name :: args) (busy : isIdle (content line) = false) :
    (Text.unfields args).toList.length < line.toList.length := by
  have whole : (content line).toList.length ≤ line.toList.length := by
    have part := (isPart_content line).length_le
    have kept := (List.filter_sublist (p := (· != '\r')) (l := line.toList)).length_le
    rw [Text.toList_dropReturns] at part
    omega
  have joined := Text.unfields_fields (content line)
  rw [split] at joined
  cases args with
  | nil =>
    have some : (content line).toList ≠ [] := by
      intro none
      simp [isIdle, none] at busy
    have positive := List.length_pos_of_ne_nil some
    have none : (Text.unfields []).toList.length = 0 := rfl
    omega
  | cons next others =>
    rw [Text.unfields_cons name (List.cons_ne_nil next others)] at joined
    have total := congrArg (·.toList.length) joined
    have space : (" " : String).toList.length = 1 := rfl
    simp only [String.toList_append, List.length_append, space] at total
    omega

theorem isIdle_of_read_runs {registry : Registry} {line : String} {command : Command}
    {args : List String} (h : read registry line = .runs command args) :
    isIdle (content line) = false := by
  by_contra idle
  simp [read, Bool.not_eq_false _ ▸ idle] at h

/-- A nested line is one of the source, or shorter than the line that it is nested in. -/
def Deeper (owner : Option Instance) (line code : String) : Prop :=
  code ∈ sourceOf owner ∨ code.toList.length < line.toList.length

theorem deeper_of_wrote {line : String} {c : Command} {args : List String} {code : String}
    (reading : read Registry.standard line = .runs c args)
    (wrote : Conduct.Wrote c.schema.name (Text.unfields args) owner code) :
    Deeper owner line code := by
  rcases wrote with ⟨-, i, rfl, mem⟩ | ⟨-, part⟩
  · exact .inl mem
  · obtain ⟨name, split, -⟩ := find?_of_read_runs reading
    have shorter := length_args_lt split (isIdle_of_read_runs reading)
    exact .inr (Nat.lt_of_le_of_lt part.length_le shorter)

/-- A line with nothing nested in it comes to its end. One with a line in it is that line, in the
same state, and an end after it. -/
theorem evaluate_opens {ws : Workspace} (standard : ws.Standard) (depth : Nat) (mode : Mode)
    (line : String) (owner : Option Instance) (transcript : List Message) :
    inner? owner ws line = none ∧ (evaluate (depth + 1) mode line owner transcript ws).Ends ∨
      ∃ code mode', ∃ rest : Ended → Workspace → Run Ended,
        inner? owner ws line = some code ∧ Deeper owner line code ∧
        evaluate (depth + 1) mode line owner transcript ws =
          (evaluate depth mode' code owner transcript ws).bind rest ∧
        ∀ e last, e.owner.map Instance.fixed = owner.map Instance.fixed → (rest e last).Ends := by
  rw [evaluate_succ, inner?, standard.registry_eq]
  cases reading : read Registry.standard line with
  | idle => exact .inl ⟨rfl, .done⟩
  | unknown name => exact .inl ⟨rfl, .done⟩
  | runs c args =>
    obtain ⟨name, -, known⟩ := find?_of_read_runs reading
    have behaves := Registry.behaves_of_find? known owner args
    let ctx : Context := { line, mode, owner, transcript }
    let bare : Context := { line, owner }
    have mine : ctx.owner.map Instance.fixed = owner.map Instance.fixed := rfl
    by_cases nests : c.schema.name ∈ nesting
    · have inquires := Registry.inquires_of_find? known nests args
      have opening : (c.run args).run.opening bare ws = (c.run args).run.opening ctx ws :=
        Action.opening_congr inquires ws rfl rfl
      rcases perform_inquires (evaluate depth) inquires behaves mine ws with
        ⟨ends, none⟩ | ⟨code, mode', rest, some, wrote, eq, ends⟩
      · exact .inl ⟨opening.trans none, ends.bind fun _ _ => .done⟩
      · let leaves : Except Fault Unit × Context → Workspace → Run Ended :=
          fun result ws => .done (leave c.schema ws.config.errorColor result) ws
        refine .inr ⟨code, mode', fun e last => (rest e last).bind leaves, opening.trans some,
          deeper_of_wrote reading wrote, ?_, ?_⟩
        · rw [← Run.bind_bind, ← eq]
        · exact fun e last kept => (ends e last kept).bind fun _ _ => .done
    · have closed : ∀ code, Stage.fresh = .fresh →
          ¬ Conduct.Wrote c.schema.name (Text.unfields args) owner code :=
        fun code _ wrote => nests wrote.mem_nesting
      have plain := perform_ends (evaluate depth) behaves closed mine ws
      refine .inl ⟨?_, plain.1.bind fun _ _ => .done⟩
      exact (perform_ends (evaluate depth) behaves closed rfl ws).2

end

/-! ## All levels -/

section

variable {owner : Option Instance} {ws : Workspace} {line : String}

theorem descent_add (owner : Option Instance) (ws : Workspace) (n m : Nat) (line : String) :
    descent owner ws (n + m) line = (descent owner ws n line).bind (descent owner ws m) := by
  induction n generalizing line with
  | zero => simp [descent]
  | succ n ih =>
    rw [Nat.succ_add, descent, descent, Option.bind_assoc]
    exact congrArg _ (funext ih)

/-- Evaluating a line finds no end if its nest goes deeper than lines may be nested; else it comes
to its end. -/
theorem endless_or_ends (standard : ws.Standard) (depth : Nat) (mode : Mode) (line : String)
    (transcript : List Message) :
    ((descent owner ws depth line).isSome = true ∧
        evaluate depth mode line owner transcript ws = .endless) ∨
      (descent owner ws depth line = none ∧
        (evaluate depth mode line owner transcript ws).Ends) := by
  induction depth generalizing mode line transcript with
  | zero => exact .inl ⟨rfl, rfl⟩
  | succ depth ih =>
    rcases evaluate_opens standard depth mode line owner transcript with
      ⟨none, ends⟩ | ⟨code, mode', rest, some, -, eq, ends⟩
    · refine .inr ⟨?_, ends⟩
      rw [descent, none, Option.bind_none]
    · rw [descent, some, Option.bind_some, eq]
      rcases ih mode' code transcript with ⟨deep, endless⟩ | ⟨shallow, ended⟩
      · exact .inl ⟨deep, by rw [endless]; rfl⟩
      · refine .inr ⟨shallow, ?_⟩
        have kept := evaluate_actsFor depth mode' code owner transcript ws
        exact ended.bind_of_obeys kept fun _ e last final => ends e last final.2

/-- Some line of the source is nested in itself. -/
def Recurs (owner : Option Instance) (ws : Workspace) (line : String) : Prop :=
  ∃ visited ∈ sourceOf owner, ∃ n m, n < m ∧
    descent owner ws n line = some visited ∧ descent owner ws m line = some visited

/-- What has come back once comes back again. -/
theorem isSome_descent_of_recurs (recurs : Recurs owner ws line) (n : Nat) :
    (descent owner ws n line).isSome = true := by
  obtain ⟨visited, -, first, second, lt, here, again⟩ := recurs
  induction n using Nat.strongRecOn with
  | ind n ih =>
    by_cases early : n ≤ second
    · -- The line is on the way to where it comes back.
      have split := descent_add owner ws n (second - n) line
      rw [Nat.add_sub_cancel' early, again] at split
      cases found : descent owner ws n line with
      | some _ => rfl
      | none => rw [found] at split; cases split
    · have below := ih (n - (second - first)) (by omega)
      have shifted := descent_add owner ws first (n - second) line
      have late := descent_add owner ws second (n - second) line
      rw [show first + (n - second) = n - (second - first) by omega, here] at shifted
      rw [show second + (n - second) = n by omega, again] at late
      rw [late, ← shifted]
      exact below

/-! ## How deep a nest can be -/

/-- The line and those nested in it, so many levels down. -/
def nest (owner : Option Instance) (ws : Workspace) : Nat → String → List String
  | 0, line => [line]
  | n + 1, line => line :: (inner? owner ws line).elim [] (nest owner ws n)

theorem nest_of_none (none : inner? owner ws line = none) (n : Nat) :
    nest owner ws n line = [line] := by
  cases n with
  | zero => rw [nest]
  | succ n => rw [nest, none, Option.elim_none]

theorem nest_of_some {code : String} (some : inner? owner ws line = some code) (n : Nat) :
    nest owner ws (n + 1) line = line :: nest owner ws n code := by
  rw [nest, some, Option.elim_some]

theorem nest_eq_cons (owner : Option Instance) (ws : Workspace) (n : Nat) (line : String) :
    ∃ below, nest owner ws n line = line :: below := by
  cases n with
  | zero => exact ⟨[], by rw [nest]⟩
  | succ n => exact ⟨_, by rw [nest]⟩

theorem length_nest {n : Nat} (deep : (descent owner ws n line).isSome = true) :
    (nest owner ws n line).length = n + 1 := by
  induction n generalizing line with
  | zero => rw [nest, List.length_singleton]
  | succ n ih =>
    rw [descent] at deep
    cases found : inner? owner ws line with
    | none =>
      rw [found] at deep
      cases deep
    | some code =>
      rw [found, Option.bind_some] at deep
      rw [nest_of_some found, List.length_cons, ih deep]

theorem descent_of_getElem?_nest {n k : Nat} {visited : String}
    (here : (nest owner ws n line)[k]? = some visited) :
    descent owner ws k line = some visited := by
  induction n generalizing line k with
  | zero =>
    cases k with
    | zero => exact here
    | succ k => simp [nest] at here
  | succ n ih =>
    cases found : inner? owner ws line with
    | none =>
      rw [nest_of_none found] at here
      cases k with
      | zero => exact here
      | succ k => simp at here
    | some code =>
      rw [nest_of_some found] at here
      cases k with
      | zero => exact here
      | succ k =>
        rw [descent, found, Option.bind_some]
        exact ih here

theorem extentOf_erase {available : List String} {visited : String} (mem : visited ∈ available) :
    extentOf available = visited.toList.length + 1 + extentOf (available.erase visited) := by
  have same := (List.perm_cons_erase mem).map fun text => text.toList.length + 1
  unfold extentOf
  rw [same.foldl_eq' (fun _ _ _ _ _ => Nat.add_right_comm ..), List.map_cons, List.foldl_cons,
    Nat.add_comm 0]
  exact List.foldl_assoc

/-- A nest in which each line of the source stands once at most is no deeper than there is text. The
available lines are those that have not been visited: a visit uses one of them up, and between two
visits the lines get shorter. -/
theorem length_le (standard : ws.Standard) {n : Nat} {available : List String}
    (once : ∀ visited ∈ sourceOf owner, (nest owner ws n line).count visited ≤ 1)
    (left : ∀ visited ∈ (nest owner ws n line).tail, visited ∈ sourceOf owner →
      visited ∈ available) :
    (nest owner ws n line).length ≤ line.toList.length + 1 + extentOf available := by
  induction n generalizing line available with
  | zero =>
    rw [nest, List.length_singleton]
    omega
  | succ n ih =>
    rcases evaluate_opens standard 0 {} line owner [] with
      ⟨none, -⟩ | ⟨code, -, -, some, deeper, -, -⟩
    · rw [nest_of_none none, List.length_singleton]
      omega
    · rw [nest_of_some some] at once left ⊢
      rw [List.tail_cons] at left
      rw [List.length_cons]
      obtain ⟨below, cons⟩ := nest_eq_cons owner ws n code
      have below_once : ∀ visited ∈ sourceOf owner, (nest owner ws n code).count visited ≤ 1 :=
        fun visited mem => Nat.le_trans (List.count_le_count_cons ..) (once visited mem)
      rcases deeper with visited | shorter
      · have free : code ∈ available := left code (by rw [cons]; exact List.mem_cons_self) visited
        have bound := @ih code (available.erase code) below_once ?_
        · have total := extentOf_erase free
          omega
        · intro other mem inside
          -- A line that is visited later is another one, or it would stand here twice.
          have differs : other ≠ code := by
            rintro rfl
            have twice := below_once other inside
            rw [cons] at twice mem
            have more := List.count_pos_iff.mpr mem
            rw [List.count_cons_self] at twice
            simp only [List.tail_cons] at more
            omega
          exact (List.mem_erase_of_ne differs).mpr (left other (List.mem_of_mem_tail mem) inside)
      · have bound := ih below_once fun other mem => left other (List.mem_of_mem_tail mem)
        omega

/-- A nest that is deeper than there is text has a line of the source in it twice. -/
theorem recurs_of_deep (standard : ws.Standard) {n : Nat}
    (deep : (descent owner ws n line).isSome = true)
    (beyond : line.toList.length + extentOf (sourceOf owner) < n) : Recurs owner ws line := by
  by_contra unique
  have once : ∀ visited ∈ sourceOf owner, (nest owner ws n line).count visited ≤ 1 := by
    intro visited mem
    by_contra more
    have twice : List.Duplicate visited (nest owner ws n line) :=
      List.duplicate_iff_two_le_count.mpr (by omega)
    obtain ⟨first, second, lt, here, again⟩ := List.duplicate_iff_exists_distinct_get.mp twice
    refine unique ⟨visited, mem, first, second, lt, ?_, ?_⟩
    · refine descent_of_getElem?_nest (n := n) ?_
      rw [List.getElem?_eq_getElem first.isLt, here, List.get_eq_getElem]
    · refine descent_of_getElem?_nest (n := n) ?_
      rw [List.getElem?_eq_getElem second.isLt, again, List.get_eq_getElem]
  have bound := length_le standard once fun visited _ inside => inside
  rw [length_nest deep] at bound
  omega

/-- At a depth beyond all text, evaluating a line finds no end exactly if a line of the source is
nested in itself, and then it finds none at any depth. -/
theorem ends_iff_not_recurs (standard : ws.Standard) {depth : Nat}
    (beyond : line.toList.length + extentOf (sourceOf owner) < depth) (mode : Mode)
    (transcript : List Message) :
    (evaluate depth mode line owner transcript ws).Ends ↔ ¬ Recurs owner ws line := by
  rcases endless_or_ends standard depth mode line transcript with ⟨deep, endless⟩ | ⟨none, ends⟩
  · rw [endless]
    have recurs : Recurs owner ws line := recurs_of_deep standard deep beyond
    exact ⟨fun ends => absurd rfl ends.ne_endless, fun unique => absurd recurs unique⟩
  · refine ⟨fun _ recurs => ?_, fun _ => ends⟩
    have deep := isSome_descent_of_recurs recurs depth
    rw [none] at deep
    cases deep

theorem endless_of_recurs (standard : ws.Standard) (recurs : Recurs owner ws line) (depth : Nat)
    (mode : Mode) (transcript : List Message) :
    evaluate depth mode line owner transcript ws = .endless := by
  rcases endless_or_ends standard depth mode line transcript with ⟨-, endless⟩ | ⟨none, -⟩
  · exact endless
  · have deep := isSome_descent_of_recurs recurs depth
    rw [none] at deep
    cases deep

end

end Line

/-! ## Ticks -/

namespace Instance

variable {ws : Workspace}

theorem tick_of_line (i : Instance) (ws : Workspace) {line : String}
    (here : i.source[i.counter]? = some line) :
    i.tick ws = (Line.evaluate (Line.depthBound line i.extent) {} line (some i) [] ws).bind
      fun e ws => .done (i.conclude e ws).1 (i.conclude e ws).2 := by
  simp only [tick, here]

theorem tick_of_recurs (i : Instance) (standard : ws.Standard) {line : String}
    (here : i.source[i.counter]? = some line) (recurs : Line.Recurs (some i) ws line) :
    i.tick ws = .endless := by
  rw [i.tick_of_line ws here, Line.endless_of_recurs standard recurs]
  rfl

/-- A tick comes to its end unless, on the way down from its line, a line of the source is nested in
itself. If one is, the line finds no end at any depth, and the script is lost. -/
theorem tick_ends_unless_line_recurs (i : Instance) (standard : ws.Standard) :
    ((i.tick ws).Ends ↔
      ∀ line, i.source[i.counter]? = some line → ¬ Line.Recurs (some i) ws line) ∧
    ∀ line, i.source[i.counter]? = some line → Line.Recurs (some i) ws line →
      i.tick ws = .endless ∧
      ∀ depth mode transcript,
        Line.evaluate depth mode line (some i) transcript ws = .endless := by
  cases here : i.source[i.counter]? with
  | none =>
    refine ⟨⟨nofun, fun _ => ?_⟩, nofun⟩
    simp only [tick, here]
    exact .done
  | some line =>
    have beyond : line.toList.length + extentOf (sourceOf (some i)) <
        Line.depthBound line i.extent := by
      rw [i.extent_eq]
      show line.toList.length + extentOf i.source <
        line.toList.length + extentOf i.source + Line.spareDepth
      exact Nat.lt_add_of_pos_right (by decide)
    have ends := Line.ends_iff_not_recurs standard beyond {} []
    have tick := i.tick_of_line ws here
    generalize Line.evaluate (Line.depthBound line i.extent) {} line (some i) [] ws = run
      at tick ends
    refine ⟨⟨?_, ?_⟩, ?_⟩
    · rintro ended _ ⟨⟩ recurs
      exact ended.ne_endless (i.tick_of_recurs standard here recurs)
    · intro unique
      rw [tick]
      exact (ends.mpr (unique line rfl)).bind fun _ _ => .done
    · rintro _ ⟨⟩ recurs
      exact ⟨i.tick_of_recurs standard here recurs, Line.endless_of_recurs standard recurs⟩

/-- A script whose second and third line visit each other. -/
def carousel : Instance :=
  .ofText "s" "visit 2\nvisit 3\nvisit 2" 1 1

/-- Not every tick comes to its end: neither visit is refused, since the script is on its first
line. -/
theorem carousel_is_endless :
    ¬ (carousel.tick .isolated).Ends ∧ carousel.tick .isolated = .endless ∧
      ∀ depth, Line.evaluate depth {} "visit 2" (some carousel) [] .isolated = .endless := by
  have recurs : Line.Recurs (some carousel) .isolated "visit 2" :=
    ⟨"visit 2", by decide +kernel, 0, 2, by decide, rfl,
      by rw [Workspace.isolated_eq]; decide +kernel⟩
  have here : carousel.source[carousel.counter]? = some "visit 2" := by decide +kernel
  have lost := carousel.tick_of_recurs Workspace.isolated_standard here recurs
  exact ⟨fun ends => ends.ne_endless lost, lost,
    fun depth => Line.endless_of_recurs Workspace.isolated_standard recurs depth {} []⟩

/-- A script that visits a line, which evaluates a part of itself. -/
def detour : Instance :=
  .ofText "d" "visit 3\nprint never\nif 1 == 1 assign x print there" 1 1

theorem detour_ends :
    Line.descent (some detour) .isolated 3 "visit 3" = some "print there" ∧
      (detour.tick .isolated).Ends := by
  have deepest : Line.descent (some detour) .isolated 3 "visit 3" = some "print there" ∧
      Line.descent (some detour) .isolated 4 "visit 3" = none := by
    rw [Workspace.isolated_eq]
    decide +kernel
  refine ⟨deepest.1, (tick_ends_unless_line_recurs detour Workspace.isolated_standard).1.mpr ?_⟩
  rintro line here recurs
  obtain rfl : "visit 3" = line := Option.some.inj here
  have deeper := Line.isSome_descent_of_recurs recurs 4
  exact absurd ((congrArg Option.isSome deepest.2).symm.trans deeper) (by simp)

end Instance

end LineScript
