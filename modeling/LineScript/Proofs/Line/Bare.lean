import LineScript.Proofs.Command.Catalogue
import LineScript.Proofs.Line.Descent

/-!
# Nests that get shorter

A line that `if` or `assign` evaluates is shorter than theirs, in characters and in fields: the name
of the command is missing at least, and the space after it. Only `visit` evaluates a line that may
be longer, and only in a script. So a bare line comes to its end, and it nests no deeper than it has
fields (`Line.bare_lines_finish_nesting`).

How deep lines may be nested has no part in it. Once an evaluation comes to its end, going deeper
would change nothing (`Line.evaluate_eq_of_ends`).
-/

namespace LineScript

/-! ## Runs that end whatever replaces their rest -/

namespace Run

variable {α β : Type}

/-- What comes after a run may be replaced by what agrees with it wherever it ends. -/
theorem Ends.bind_eq {run : Run α} {f g : α → Workspace → Run β} (ends : (run.bind f).Ends)
    (agree : ∀ value ws, (f value ws).Ends → g value ws = f value ws) :
    run.bind g = run.bind f := by
  induction run with
  | done value ws => exact agree value ws ends
  | await wait ws next ih =>
    cases ends with
    | await rest => exact congrArg (Run.await wait ws) (funext fun later => ih later (rest later))
  | endless => rfl

theorem Ends.waitFor_eq {wait : Wait} {ws : Workspace} {f g : Workspace → Run α}
    (ends : (Run.waitFor wait ws f).Ends) (agree : ∀ later, (f later).Ends → g later = f later) :
    Run.waitFor wait ws g = Run.waitFor wait ws f := by
  unfold Run.waitFor at ends ⊢
  split
  · rename_i past
    rw [if_pos past] at ends
    exact agree ws ends
  · rename_i waits
    rw [if_neg waits] at ends
    cases ends with
    | await rest =>
      exact congrArg (Run.await wait ws) (funext fun later => agree later (rest later))

theorem Ends.of_bind {run : Run α} {f : α → Workspace → Run β} (ends : (run.bind f).Ends) :
    run.Ends := by
  induction run with
  | done value ws => exact .done
  | await wait ws next ih =>
    cases ends with
    | await rest => exact .await fun later => ih later (rest later)
  | endless => cases ends

end Run

namespace Line

/-! ## Going deeper -/

section

variable {α : Type} {nested deeper : Evaluator}
  (agree : ∀ mode line owner transcript ws, (nested mode line owner transcript ws).Ends →
    deeper mode line owner transcript ws = nested mode line owner transcript ws)
include agree

/-- By induction on the action. Where it evaluates a line, that line ends, since the whole does, and
so it is the same if evaluated deeper. -/
theorem perform_eq_of_ends {action : Action α} {ctx : Context} {ws : Workspace}
    (ends : (perform nested action ctx ws).Ends) :
    perform deeper action ctx ws = perform nested action ctx ws := by
  induction action generalizing ctx ws with
  | done value => rfl
  | ask r next ih => exact ih _ ends
  | evaluate line quiet next ih =>
    simp only [perform] at ends ⊢
    rw [agree _ _ _ _ _ ends.of_bind]
    exact ends.bind_eq fun e last rest => ih _ rest
  | sleep duration next ih => exact ends.waitFor_eq fun later rest => ih rest
  | runScripts names next ih =>
    simp only [perform] at ends ⊢
    cases started : ws.startBatch (ctx.owner.map (·.name)) names with
    | error e =>
      simp only [started] at ends
      exact ih _ ends
    | ok batch =>
      simp only [started] at ends
      exact ends.waitFor_eq fun later rest => ih _ rest
  | readInput next ih => exact ends.waitFor_eq fun later rest => ih _ rest

end

/-- An evaluation that comes to its end is the same if lines may be nested deeper. -/
theorem evaluate_succ_eq_of_ends {depth : Nat} {mode : Mode} {line : String}
    {owner : Option Instance} {transcript : List Message} {ws : Workspace}
    (ends : (evaluate depth mode line owner transcript ws).Ends) :
    evaluate (depth + 1) mode line owner transcript ws =
      evaluate depth mode line owner transcript ws := by
  induction depth generalizing mode line owner transcript ws with
  | zero => cases ends
  | succ depth ih =>
    rw [evaluate_succ] at ends
    rw [evaluate_succ, evaluate_succ]
    dsimp only at ends ⊢
    split
    · rfl
    · rfl
    · rename_i command args reading
      simp only [reading] at ends
      rw [perform_eq_of_ends (fun _ _ _ _ _ rest => ih rest) ends.of_bind]

theorem evaluate_eq_of_ends {depth more : Nat} {mode : Mode} {line : String}
    {owner : Option Instance} {transcript : List Message} {ws : Workspace}
    (ends : (evaluate depth mode line owner transcript ws).Ends) (le : depth ≤ more) :
    evaluate more mode line owner transcript ws =
      evaluate depth mode line owner transcript ws := by
  induction more, le using Nat.le_induction with
  | base => rfl
  | succ more _ ih => rw [evaluate_succ_eq_of_ends (ih ▸ ends), ih]

end Line

/-! ## Fields of nested lines -/

theorem Text.length_fields (s : String) : (fields s).length = s.toList.count ' ' + 1 := by
  have pieces : ∀ cs : List Char, (cs.splitOn ' ').length = cs.count ' ' + 1 := by
    intro cs
    induction cs with
    | nil => rfl
    | cons c cs ih =>
      rw [List.splitOn_cons_eq_if_modifyHead]
      by_cases space : c = ' ' <;> simp [space, ih]
  simp [fields, pieces]

namespace Line

/-- The number of fields of a line. -/
def fieldCount (line : String) : Nat :=
  (Text.fields (content line)).length

section

variable {line code name : String} {args : List String}

theorem fieldCount_le_count (line : String) : fieldCount line ≤ line.toList.count ' ' + 1 := by
  have part := (isPart_content line).sublist.count_le ' '
  have kept := (List.filter_sublist (p := (· != '\r')) (l := line.toList)).count_le ' '
  rw [Text.toList_dropReturns] at part
  rw [fieldCount, Text.length_fields]
  omega

/-- What is a part of the arguments has fewer fields than the whole. -/
theorem fieldCount_lt (split : Text.fields (content line) = name :: args) (some : args ≠ [])
    (part : Text.IsPart code (Text.unfields args)) : fieldCount code < fieldCount line := by
  have whole := congrArg (·.toList.count ' ') (Text.unfields_fields (content line))
  rw [split, Text.unfields_cons name some] at whole
  have space : (" " : String).toList.count ' ' = 1 := rfl
  simp only [String.toList_append, List.count_append, space] at whole
  have inside := part.sublist.count_le ' '
  have few := fieldCount_le_count code
  have wide : fieldCount line = (content line).toList.count ' ' + 1 := Text.length_fields _
  omega

end

/-! ## One line in another -/

section

variable {owner : Option Instance} {ws : Workspace} {line code : String} {c : Command}
  {args : List String}

/-- What a line may evaluate stands in its arguments, unless it is visited in a script. -/
theorem part_of_wrote (reading : read Registry.standard line = .runs c args)
    (wrote : Conduct.Wrote c.schema.name (Text.unfields args) owner code)
    (plain : owner = none ∨ command? line ≠ some "visit") :
    (c.schema.name = "if" ∨ c.schema.name = "assign") ∧
      Text.IsPart code (Text.unfields args) := by
  rcases wrote with ⟨visit, i, owned, -⟩ | written
  · rcases plain with bare | other
    · cases bare.symm.trans owned
    · exact absurd (visit ▸ (runs_of_read reading).command) other
  · exact written

/-- Then it is shorter than the line. -/
theorem shorter_of_wrote (reading : read Registry.standard line = .runs c args)
    (wrote : Conduct.Wrote c.schema.name (Text.unfields args) owner code)
    (plain : owner = none ∨ command? line ≠ some "visit") :
    (command? line = some "if" ∨ command? line = some "assign") ∧
      code.toList.length < line.toList.length := by
  obtain ⟨either, part⟩ := part_of_wrote reading wrote plain
  obtain ⟨name, split, -⟩ := find?_of_read_runs reading
  have below := length_args_lt split (isIdle_of_read_runs reading)
  rw [(runs_of_read reading).command]
  exact ⟨either.imp (congrArg _) (congrArg _), Nat.lt_of_le_of_lt part.length_le below⟩

/-- Without arguments `if` and `assign` evaluate nothing. -/
theorem opening_nil (either : c = Builtin.ifCommand ∨ c = Builtin.assign)
    (ctx : Context) (ws : Workspace) : (c.run []).run.opening ctx ws = none := by
  rcases either with rfl | rfl
  · rfl
  · have missing (name : String) : name = "" ∨ Text.trim (Builtin.rest [] 1) = "" :=
      .inr (by decide +kernel)
    simp only [Builtin.assign, if_pos (missing _)]
    rfl

/-- The line evaluates the other one, and this is no visit in a script. -/
structure Encloses (owner : Option Instance) (ws : Workspace) (line code : String) : Prop where
  inside : inner? owner ws line = some code
  plain : owner = none ∨ command? line ≠ some "visit"

variable (standard : ws.Standard)
include standard

/-- What a line evaluates is what its command may evaluate. -/
theorem wrote_of_inner? (inside : inner? owner ws line = some code) :
    ∃ c args, read Registry.standard line = .runs c args ∧
      (c.run args).run.opening { line, owner } ws = some code ∧
      Conduct.Wrote c.schema.name (Text.unfields args) owner code := by
  rw [inner?, standard.registry_eq] at inside
  cases reading : read Registry.standard line with
  | idle => simp [reading, Reading.opening] at inside
  | unknown name => simp [reading, Reading.opening] at inside
  | runs c args =>
    rw [reading] at inside
    have opens : (c.run args).run.opening { line, owner } ws = some code := inside
    refine ⟨c, args, rfl, opens, ?_⟩
    obtain ⟨name, -, known⟩ := find?_of_read_runs reading
    have behaves := Registry.behaves_of_find? known owner args
    -- What is evaluated first does not depend on how lines in it are evaluated.
    let ctx : Context := { line, owner }
    have mine : ctx.owner.map Instance.fixed = owner.map Instance.fixed := rfl
    by_cases nests : c.schema.name ∈ nesting
    · have inquires := Registry.inquires_of_find? known nests args
      rcases perform_inquires (evaluate 0) inquires behaves mine ws with
        ⟨-, none⟩ | ⟨other, -, -, some, wrote, -, -⟩
      · cases opens.symm.trans none
      · cases opens.symm.trans some
        exact wrote
    · have closed : ∀ code, Stage.fresh = .fresh →
          ¬ Conduct.Wrote c.schema.name (Text.unfields args) owner code :=
        fun code _ wrote => nests wrote.mem_nesting
      have none := (perform_ends (evaluate 0) behaves closed mine ws).2
      cases opens.symm.trans none

/-- Only `if` and `assign` enclose lines, and a line that is enclosed is shorter and has fewer
fields. -/
theorem Encloses.shorter (h : Encloses owner ws line code) :
    (command? line = some "if" ∨ command? line = some "assign") ∧
      code.toList.length < line.toList.length ∧ fieldCount code < fieldCount line := by
  obtain ⟨c, args, reading, opens, wrote⟩ := wrote_of_inner? standard h.inside
  obtain ⟨name, split, known⟩ := find?_of_read_runs reading
  obtain ⟨command, shorter⟩ := shorter_of_wrote reading wrote h.plain
  obtain ⟨either, part⟩ := part_of_wrote reading wrote h.plain
  have builtin := Registry.mem_builtins_of_find? known
  -- Without arguments a part of them would have as many fields as the line, namely one.
  have some : args ≠ [] := by
    rintro rfl
    rcases nesting_cases c builtin wrote.mem_nesting with rfl | two
    · exact absurd either (by decide)
    · cases opens.symm.trans (opening_nil two _ ws)
  exact ⟨command, shorter, fieldCount_lt split some part⟩

/-- To be enclosed is well-founded. -/
theorem encloses_wellFounded : WellFounded fun code line => Encloses owner ws line code :=
  Subrelation.wf (fun h => (h.shorter standard).2.1)
    (measure fun line : String => line.toList.length).wf

theorem length_lt_of_isChain {lines : List String}
    (chain : (line :: lines).IsChain (Encloses owner ws)) : lines.length < fieldCount line := by
  induction lines generalizing line with
  | nil =>
    rw [List.length_nil, fieldCount, Text.length_fields]
    omega
  | cons code lines ih =>
    obtain ⟨encloses, chain⟩ := List.isChain_cons_cons.mp chain
    have below := ih chain
    have fewer := (encloses.shorter standard).2.2
    rw [List.length_cons]
    omega

theorem pairwise_of_isChain {lines : List String} (chain : lines.IsChain (Encloses owner ws)) :
    lines.Pairwise fun line code => code.toList.length < line.toList.length := by
  have transitive : IsTrans String fun line code => code.toList.length < line.toList.length :=
    ⟨fun _ _ _ first second => second.trans first⟩
  exact (chain.imp fun _ _ h => (h.shorter standard).2.1).pairwise

end

/-! ## Everything that is evaluated -/

/-- A line that is evaluated is shorter than the one that has it evaluated, unless it is visited in
a script. -/
def Shrinks (owner : Option Instance) (entry : Entry) : Prop :=
  ∀ code, entry.nested? = some code → owner = none ∨ command? entry.line ≠ some "visit" →
    (command? entry.line = some "if" ∨ command? entry.line = some "assign") ∧
      code.toList.length < entry.line.toList.length

/-- Of lines with such entries alone, which leave their owner as it was. -/
def Shrinking : Outcomes := fun call result log =>
  (∀ e, result = some e → e.owner.map Instance.fixed = call.owner.map Instance.fixed) ∧
    ∀ entry ∈ log, Shrinks call.owner entry

theorem shrinking_keepsOwner : KeepsOwner Shrinking :=
  fun _ e _ shrinking => shrinking.1 e rfl

section

variable {call : Call} {c : Command} {args : List String} {s : Stage} {ctx : Context}
  {log own : List Entry} (reading : read Registry.standard call.line = .runs c args)
include reading

theorem shrinks_nested {code : String} {quiet : Bool} {result : Option Ended}
    (reached : Reached Shrinking call c.schema.name (Text.unfields args) s ctx log)
    (before : ∀ entry ∈ log, Shrinks call.owner entry)
    (wrote : Conduct.Wrote c.schema.name (Text.unfields args) call.owner code)
    (inside : Shrinking (nestedCall ctx code quiet) result own) :
    ∀ entry ∈ log ++ ⟨call.line, .evaluated code⟩ :: own, Shrinks call.owner entry := by
  -- The line in this one has the same owner, and is bare if this one is.
  have same := reached.owner_eq shrinking_keepsOwner
  have bare : call.owner = none → ctx.owner = none := by
    intro none
    rw [none] at same
    exact Option.map_eq_none_iff.mp same
  refine List.forall_mem_append.mpr ⟨before, List.forall_mem_cons.mpr ⟨?_, ?_⟩⟩
  · rintro _ ⟨⟩ plain
    exact shorter_of_wrote reading wrote plain
  · intro entry mem code nested plain
    exact inside.2 entry mem code nested (plain.imp_left bare)

theorem Reached.shrinks
    (h : Reached Shrinking call c.schema.name (Text.unfields args) s ctx log) :
    ∀ entry ∈ log, Shrinks call.owner entry := by
  induction h with
  | start => simp
  | asked ws r before permitted ih =>
    refine List.forall_mem_append.mpr ⟨ih, List.forall_mem_singleton.mpr ?_⟩
    intro code nested
    cases nested
  | nested before wrote evaluated ih => exact shrinks_nested reading before ih wrote evaluated

theorem Cut.shrinks (h : Cut Shrinking call c.schema.name (Text.unfields args) log) :
    ∀ entry ∈ log, Shrinks call.owner entry := by
  cases h with
  | waiting reached => exact reached.shrinks reading
  | inside reached wrote unfinished =>
    exact shrinks_nested reading reached (reached.shrinks reading) wrote unfinished

end

/-- By induction on how deep lines may be nested. -/
theorem journal_shrinks (depth : Nat) : Follows Shrinking (journal depth) := by
  induction depth with
  | zero =>
    intro call ws found standard all
    exact Journal.leads_cut ⟨nofun, by simp⟩
  | succ depth ih =>
    intro call ws found standard all
    unfold journal recordLine
    rw [standard.registry_eq]
    cases reading : read Registry.standard call.line with
    | idle => exact Journal.leads_done ⟨by rintro _ ⟨⟩; rfl, by simp⟩ standard all
    | unknown name => exact Journal.leads_done ⟨by rintro _ ⟨⟩; rfl, by simp⟩ standard all
    | runs c args =>
      obtain ⟨name, -, known⟩ := find?_of_read_runs reading
      have behaves := Registry.behaves_of_find? known call.owner args
      refine (record_leads shrinking_keepsOwner ih (c.run args).run .start behaves
        standard all).bind ?_ fun log cut => ⟨nofun, cut.shrinks reading⟩
      rintro ⟨result, ctx⟩ ws found log ⟨s, reached, -⟩ standard all
      refine Journal.leads_done ⟨?_, reached.shrinks reading⟩ standard all
      rintro _ ⟨⟩
      have same := reached.owner_eq shrinking_keepsOwner
      cases result <;> exact same

/-! ## Bare lines -/

section

variable {ws : Workspace} (standard : ws.Standard)
include standard

theorem descent_bare {n : Nat} {line : String} (deep : (descent none ws n line).isSome = true) :
    n < fieldCount line := by
  induction n generalizing line with
  | zero =>
    rw [fieldCount, Text.length_fields]
    omega
  | succ n ih =>
    rw [descent] at deep
    cases inside : inner? none ws line with
    | none => simp [inside] at deep
    | some code =>
      have encloses : Encloses none ws line code := ⟨inside, .inl rfl⟩
      have below : n < fieldCount code := ih (by simpa [inside] using deep)
      have fewer := (encloses.shorter standard).2.2
      omega

theorem evaluate_bare_ends {depth : Nat} {line : String} (deep : fieldCount line ≤ depth)
    (mode : Mode) (transcript : List Message) :
    (evaluate depth mode line none transcript ws).Ends := by
  -- A nest that is deeper than this would have more lines than there are fields.
  rcases endless_or_ends standard depth mode line transcript with ⟨more, -⟩ | ⟨-, ends⟩
  · have beyond := descent_bare standard more
    omega
  · exact ends

theorem evaluate_bare_visit {line : String} (visits : command? line = some "visit") (depth : Nat)
    (mode : Mode) (transcript : List Message) :
    evaluate (depth + 1) mode line none transcript ws =
      let ctx : Context := { line, mode, transcript }
      .done (ended (ctx.report ws.config.errorColor
        (faultText Builtin.visit.schema .visitOutsideScript))) ws := by
  rw [evaluate_succ, standard.registry_eq]
  unfold command? at visits
  cases reading : read Registry.standard line with
  | idle => simp [reading] at visits
  | unknown name => simp [reading] at visits
  | runs c args =>
    obtain ⟨name, -, known⟩ := find?_of_read_runs reading
    have named : c.schema.name = "visit" := by simpa [reading] using visits
    have nests : c.schema.name ∈ nesting := by simp [named, nesting]
    rcases nesting_cases c (Registry.mem_builtins_of_find? known) nests with rfl | rfl | rfl
    · rfl
    · exact absurd named (by decide)
    · exact absurd named (by decide)

theorem runBare_ends (line : String) : (runBare line ws).Ends := by
  have few : fieldCount line ≤ depthBound line 0 := by
    have count := fieldCount_le_count line
    have spaces : line.toList.count ' ' ≤ line.toList.length := List.count_le_length
    have spare : 0 < spareDepth := by decide
    unfold depthBound
    omega
  have ends := evaluate_bare_ends standard few {} []
  unfold runBare
  generalize evaluate (depthBound line 0) {} line none [] ws = run at ends
  exact ends.bind fun _ _ => .done

/-- A line with nothing in it needs no other. -/
theorem evaluate_of_inner?_eq_none {line : String} {owner : Option Instance}
    (none : inner? owner ws line = none) (depth : Nat) (mode : Mode) (transcript : List Message) :
    evaluate (depth + 1) mode line owner transcript ws =
      evaluate 1 mode line owner transcript ws := by
  rcases @endless_or_ends owner ws standard 1 mode line transcript with ⟨deep, -⟩ | ⟨-, ends⟩
  · simp [descent, none] at deep
  · exact evaluate_eq_of_ends ends (Nat.le_add_left 1 depth)

/-- A line with a line in it goes on from that one. -/
theorem evaluate_of_inner?_eq_some {line code : String} {owner : Option Instance}
    (inside : inner? owner ws line = some code) (depth : Nat) (mode : Mode)
    (transcript : List Message) :
    ∃ mode' rest, evaluate (depth + 1) mode line owner transcript ws =
      (evaluate depth mode' code owner transcript ws).bind rest := by
  rcases evaluate_opens standard depth mode line owner transcript with
    ⟨none, -⟩ | ⟨other, mode', rest, some, -, eq, -⟩
  · cases inside.symm.trans none
  · cases inside.symm.trans some
    exact ⟨mode', rest, eq⟩

/-- Whatever `if` and `assign` evaluate is shorter than their line, and outside a script `visit`
evaluates nothing. So a chain of nested lines has no more lines than its first one has fields, in a
script as long as there is no visit in it. A bare line comes to its end, the same one however deep
lines may be nested beyond that. -/
theorem bare_lines_finish_nesting :
    (∀ (depth : Nat) (call : Call) (found : List Workspace), AllStandard found →
      ∀ entry ∈ (journal depth call ws found).entries, Shrinks call.owner entry) ∧
    (∀ (depth : Nat) (mode : Mode) (line : String) (transcript : List Message),
      command? line = some "visit" → inner? none ws line = none ∧
        evaluate (depth + 1) mode line none transcript ws =
          let ctx : Context := { line, mode, transcript }
          .done (ended (ctx.report ws.config.errorColor
            (faultText Builtin.visit.schema .visitOutsideScript))) ws) ∧
    (∀ owner : Option Instance,
      (∀ (depth : Nat) (mode : Mode) (line : String) (transcript : List Message),
        (inner? owner ws line = none → evaluate (depth + 1) mode line owner transcript ws =
          evaluate 1 mode line owner transcript ws) ∧
        ∀ code, inner? owner ws line = some code →
          ∃ mode' rest, evaluate (depth + 1) mode line owner transcript ws =
            (evaluate depth mode' code owner transcript ws).bind rest) ∧
      (WellFounded fun code line => Encloses owner ws line code) ∧
      ∀ (line : String) (lines : List String), (line :: lines).IsChain (Encloses owner ws) →
        ((line :: lines).Pairwise fun line code => code.toList.length < line.toList.length) ∧
          (line :: lines).length ≤ fieldCount line) ∧
    ∀ line : String, (runBare line ws).Ends ∧
      ∀ (depth : Nat) (mode : Mode) (transcript : List Message), fieldCount line ≤ depth →
        (evaluate depth mode line none transcript ws).Ends ∧
          evaluate depth mode line none transcript ws =
            evaluate (fieldCount line) mode line none transcript ws := by
  refine ⟨fun depth call found all => ?_, fun depth mode line transcript visits => ?_,
    fun owner => ⟨?_, ?_, ?_⟩, fun line => ⟨?_, fun depth mode transcript deep => ?_⟩⟩
  · have leads := journal_shrinks depth call ws found standard all
    cases result : (journal depth call ws found).result with
    | none => exact (leads.stopped result).2
    | some r => exact (leads.ended r result).1.2
  · refine ⟨?_, evaluate_bare_visit standard visits depth mode transcript⟩
    cases inside : inner? none ws line with
    | none => rfl
    | some code =>
      have encloses : Encloses none ws line code := ⟨inside, .inl rfl⟩
      have command := (encloses.shorter standard).1
      simp [visits] at command
  · intro depth mode line transcript
    exact ⟨fun none => evaluate_of_inner?_eq_none standard none depth mode transcript,
      fun _ inside => evaluate_of_inner?_eq_some standard inside depth mode transcript⟩
  · exact encloses_wellFounded standard
  · exact fun line lines chain =>
      ⟨pairwise_of_isChain standard chain, length_lt_of_isChain standard chain⟩
  · exact runBare_ends standard line
  · have ends := evaluate_bare_ends standard (Nat.le_refl (fieldCount line)) mode transcript
    exact ⟨evaluate_bare_ends standard deep mode transcript, evaluate_eq_of_ends ends deep⟩

end

/-- A condition, an assignment in it, and in this a text that is printed. -/
theorem threefold_line_finishes_nesting :
    let line := "if 1 == 1 assign x print there"
    let chain := [line, "assign x print there", "print there"]
    chain.IsChain (Encloses none .isolated) ∧
      chain.Pairwise (fun line code => code.toList.length < line.toList.length) ∧
      chain.length ≤ fieldCount line ∧ (runBare line .isolated).Ends ∧
      evaluate 100 {} line none [] .isolated = evaluate 8 {} line none [] .isolated := by
  intro line chain
  have inner : inner? none .isolated line = some "assign x print there" ∧
      inner? none .isolated "assign x print there" = some "print there" := by
    rw [Workspace.isolated_eq]
    decide +kernel
  have encloses : chain.IsChain (Encloses none .isolated) :=
    .cons_cons ⟨inner.1, .inl rfl⟩ (.cons_cons ⟨inner.2, .inl rfl⟩ (.singleton _))
  obtain ⟨-, -, chains, ends⟩ := bare_lines_finish_nesting Workspace.isolated_standard
  obtain ⟨shorter, few⟩ := (chains none).2.2 _ _ encloses
  have fields : fieldCount line = 8 := by decide +kernel
  have deep := ((ends line).2 100 {} [] (by rw [fields]; decide)).2
  rw [fields] at deep
  exact ⟨encloses, shorter, few, (ends line).1, deep⟩

end Line

end LineScript
