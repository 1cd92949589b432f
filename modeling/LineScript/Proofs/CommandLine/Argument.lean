import LineScript.CommandLine
import LineScript.Proofs.Line.Attendance
import LineScript.Proofs.Line.Storage
import LineScript.Proofs.Template.Literal

/-!
# The script on the command line

The program puts the command `run` before the name that it was given, and the line is then read as
any other: cut at its spaces, rid of its carriage returns, trimmed, and its references replaced.
Main statement: the scripts that the line asks for are the one that was given exactly if nothing of
this touches its name (`argument_is_run_iff`). No other name comes through, since the pieces into
which a line is cut are parts of it and a replacement without variables only takes signs away.
-/

namespace LineScript

/-- No field has a space in it. -/
theorem Text.notMem_of_mem_fields {field s : String} (mem : field ∈ fields s) :
    ' ' ∉ field.toList := by
  have pieces : ∀ cs : List Char, ∀ piece ∈ cs.splitOn ' ', ' ' ∉ piece := by
    intro cs
    induction cs with
    | nil => simp
    | cons c cs ih =>
      rw [List.splitOn_cons_eq_if_modifyHead]
      split_ifs with space
      · simpa using ih
      · cases split : cs.splitOn ' ' with
        | nil => simp
        | cons first others =>
          rw [split] at ih
          obtain ⟨here, later⟩ := List.forall_mem_cons.mp ih
          have other : ' ' ≠ c := fun eq => space (beq_iff_eq.mpr eq.symm)
          simpa [List.forall_mem_cons, other, here] using later
  obtain ⟨piece, among, rfl⟩ := List.mem_map.mp mem
  rw [String.toList_ofList]
  exact pieces s.toList piece among

namespace Line

/-! ## The command that runs scripts -/

/-- What the command does with the names that it has made out. -/
def startAll : List String → Step Unit
  | [] => pure ()
  | names => Step.runScripts names

/-- What the arguments of the command stand for, leaving out those that stand for nothing. -/
def askedScripts (globals : Scope) (args : List String) : List String :=
  (args.map fun arg =>
    Template.expand (Scope.visibleText? none globals) (Text.trim arg)).filter (· != "")

section

variable {α : Type} (nested : Evaluator) (ctx : Context) (ws : Workspace)

theorem perform_expandAll_bind (args : List String) (f : List String → Step α) :
    perform nested ((args.mapM fun arg => Step.expand (Text.trim arg)) >>= f).run ctx ws =
      perform nested
        (f (args.map fun arg => Template.expand (ctx.lookup ws) (Text.trim arg))).run ctx ws := by
  induction args generalizing f with
  | nil => rw [List.mapM_nil, pure_bind, List.map_nil]
  | cons arg args ih =>
    simp only [List.mapM_cons, bind_assoc, pure_bind, perform_expand_bind, ih, List.map_cons]

theorem perform_startAll_nil :
    perform nested (startAll []).run ctx ws = .done (.ok (), ctx) ws :=
  rfl

theorem perform_runScripts (names : List String) :
    perform nested (Step.runScripts names).run ctx ws =
      match ws.startBatch (ctx.owner.map (·.name)) names with
      | .error e => .done (.error (.start e), ctx) ws
      | .ok (started, ws) =>
        Run.waitFor (.batch started.batch) ws fun ws => .done (.ok (), ctx) ws := by
  have asked : perform nested (Step.runScripts names).run ctx ws =
      perform nested (.runScripts names fun result => (Step.ofExcept .start result).run) ctx ws :=
    rfl
  rw [asked, perform]
  cases ws.startBatch (ctx.owner.map (·.name)) names <;> rfl

end

section

variable {ws : Workspace} (builtins : ws.registry.HoldsBuiltins) (text : String)
include builtins

theorem read_run :
    read ws.registry ("run " ++ text) =
      .runs Builtin.run (Text.fields (Text.dropReturns text)) := by
  have trimmed : Text.trimStart ("run " ++ text) = "run " ++ text := by
    apply String.toList_injective
    simp only [Text.toList_trimStart, String.toList_append]
    rfl
  have whole : content ("run " ++ text) = "run " ++ Text.dropReturns text := by
    apply String.toList_injective
    simp [content, trimmed]
  have split : Text.fields ("run " ++ Text.dropReturns text) =
      "run" :: Text.fields (Text.dropReturns text) := by
    have first : ("run " ++ Text.dropReturns text).toList =
        "run".toList ++ ' ' :: (Text.dropReturns text).toList := by
      simp
    rw [Text.fields, first, List.splitOn_append_cons_self_of_not_mem (by decide), List.map_cons]
    rfl
  refine read_runs_of_builtin builtins "run" (by simp [LineScript.builtins]) ?_ ?_
    (by decide +kernel)
  · rw [whole]
    exact isIdle_of_letter (c := 'r') (by simp) (by decide)
  · rw [whole, split]

/-- The scripts that a bare line with the command asks for. -/
def batchOf (ws : Workspace) (text : String) : List String :=
  askedScripts ws.globals (Text.fields (Text.dropReturns text))

theorem evaluate_run (depth : Nat) :
    evaluate (depth + 1) {} ("run " ++ text) none [] ws =
      (perform (evaluate depth) (startAll (batchOf ws text)).run
          { line := "run " ++ text } ws).bind fun result ws =>
        .done (leave Builtin.run.schema ws.config.errorColor result) ws := by
  let ctx : Context := { line := "run " ++ text }
  have asked : ((Text.fields (Text.dropReturns text)).map fun arg =>
      Template.expand (ctx.lookup ws) (Text.trim arg)).filter (· != "") = batchOf ws text := rfl
  have performed : perform (evaluate depth)
      (Builtin.run.run (Text.fields (Text.dropReturns text))).run ctx ws =
        perform (evaluate depth) (startAll (batchOf ws text)).run ctx ws := by
    simp only [Builtin.run, perform_expandAll_bind, asked]
    cases batchOf ws text <;> rfl
  rw [evaluate_succ, read_run builtins]
  exact congrArg (Run.bind · _) performed

/-- A line that asks for no scripts is over at once, and so is one that is refused. A line that asks
for others has to wait for them. -/
theorem runRequest_run :
    (batchOf ws text = [] ∧
      runRequest ("run " ++ text) ws = .done {} ws.beginRequest.endRequest) ∨
    (∃ e evaluation last, ws.beginRequest.startBatch none (batchOf ws text) = .error e ∧
      runRequest ("run " ++ text) ws = .done evaluation last) ∨
    ∃ started last, batchOf ws text ≠ [] ∧
      ws.beginRequest.startBatch none (batchOf ws text) = .ok (started, last) ∧
      runRequest ("run " ++ text) ws =
        .await (.batch started.batch) last fun ws => .done {} ws.endRequest := by
  obtain ⟨depth, enough⟩ := exists_depthBound_eq_succ ("run " ++ text) 0
  have begun : ws.beginRequest.registry.HoldsBuiltins := builtins
  have same : batchOf ws.beginRequest text = batchOf ws text := rfl
  rw [runRequest, runBare, enough, evaluate_run begun, same]
  cases asked : batchOf ws text with
  | nil =>
    refine .inl ⟨rfl, ?_⟩
    simp [perform_startAll_nil, Run.bind, leave, ended, Context.evaluation]
  | cons name names =>
    simp only [startAll, perform_runScripts, Option.map_none]
    cases outcome : ws.beginRequest.startBatch none (name :: names) with
    | error e => exact .inr (.inl ⟨e, _, _, rfl, rfl⟩)
    | ok r =>
      obtain ⟨started, last⟩ := r
      have under : Wait.isOver last (.batch started.batch) = false :=
        isComplete_of_startBatch outcome (List.cons_ne_nil _ _)
      refine .inr (.inr ⟨started, last, List.cons_ne_nil _ _, rfl, ?_⟩)
      simp [Run.waitFor, under, Run.bind, leave, ended, Context.evaluation]

end

/-- The line starts these scripts as a batch, waits for it, and is over when the batch is. -/
def StartsBatch (names : List String) (line : String) (ws : Workspace) : Prop :=
  ∃ started last, ws.beginRequest.startBatch none names = .ok (started, last) ∧
    runRequest line ws = .await (.batch started.batch) last fun ws => .done {} ws.endRequest

/-- The instances that a start leaves to the driver tell which scripts it was about. -/
theorem names_eq_of_startBatch {ws last : Workspace} {invoker : Option String}
    {names others : List String} {first second : Workspace.Started}
    (one : ws.startBatch invoker names = .ok (first, last))
    (two : ws.startBatch invoker others = .ok (second, last)) : names = others := by
  obtain ⟨-, scripts, e, rfl, new, -, rfl⟩ := Workspace.startBatch_ok one
  obtain ⟨-, scripts', e', rfl, new', -, same⟩ := Workspace.startBatch_ok two
  have instances : e.instances = e'.instances :=
    List.append_cancel_left (congrArg Workspace.inbox same)
  rw [← Scheduler.newInstances_names ws.scheduler, ← new.instances, instances, new'.instances,
    Scheduler.newInstances_names]

theorem startsBatch_run_iff {ws : Workspace} (builtins : ws.registry.HoldsBuiltins)
    (driven : ws.driven = true) {names : List String} (startable : ws.Startable none names)
    (some : names ≠ []) (text : String) :
    StartsBatch names ("run " ++ text) ws ↔ batchOf ws text = names := by
  constructor
  · rintro ⟨started, last, ok, awaits⟩
    obtain ⟨-, finished⟩ | ⟨e, evaluation, last', -, finished⟩ |
        ⟨started', last', -, ok', awaits'⟩ := runRequest_run builtins text
    · rw [finished] at awaits
      cases awaits
    · rw [finished] at awaits
      cases awaits
    · -- Both lines wait in the same workspace, and its inbox tells which scripts were started.
      obtain ⟨-, rfl, -⟩ := Run.await.inj (awaits'.symm.trans awaits)
      exact names_eq_of_startBatch ok' ok
  · rintro rfl
    have begun : ws.beginRequest.Startable none (batchOf ws text) :=
      ⟨startable.other, startable.distinct, startable.idle, startable.loads⟩
    obtain ⟨r, ok⟩ : ∃ r, ws.beginRequest.startBatch none (batchOf ws text) = .ok r :=
      Workspace.startBatch_of_startable driven begun
    obtain ⟨none, -⟩ | ⟨e, evaluation, last, refused, -⟩ | ⟨started, last, -, ok, awaits⟩ :=
      runRequest_run builtins text
    · exact absurd none some
    · rw [ok] at refused
      cases refused
    · exact ⟨started, last, ok, awaits⟩

end Line

namespace CommandLine

/-! ## Names that come through -/

/-- A name that a line keeps together and leaves as it is. -/
structure IsPlainArgument (name : String) : Prop where
  filled : name ≠ ""
  single : ' ' ∉ name.toList
  free : '\r' ∉ name.toList
  trimmed : Text.trim name = name
  literal : Template.HasNoEscape name.toList

theorem visibleText?_empty : Scope.visibleText? none {} = Template.unset := rfl

theorem IsPlainArgument.askedScripts {name : String} (plain : IsPlainArgument name) :
    Line.askedScripts {} (Text.fields (Text.dropReturns name)) = [name] := by
  have kept : Text.dropReturns name = name := by
    apply String.toList_injective
    rw [Text.toList_dropReturns, List.filter_eq_self]
    intro c mem
    exact bne_iff_ne.mpr fun eq => plain.free (eq ▸ mem)
  have whole : Text.fields name = [name] := by
    rw [Text.fields, List.splitOn_eq_singleton plain.single, List.map_singleton,
      String.ofList_toList]
  have literal := Template.expand_unset_eq_self_iff.mpr plain.literal
  rw [kept, whole, Line.askedScripts, visibleText?_empty, List.map_singleton, plain.trimmed,
    literal, List.filter_singleton, bne_iff_ne.mpr plain.filled, cond_true]

/-- The name is what comes of a part of it. A part has no more signs than the whole, and what comes
of it has fewer unless it is the part itself; so the part is the name, and the whole of it. -/
theorem isPlainArgument_of_mem {name : String}
    (mem : name ∈ Line.askedScripts {} (Text.fields (Text.dropReturns name))) :
    IsPlainArgument name := by
  obtain ⟨mapped, filled⟩ := List.mem_filter.mp mem
  obtain ⟨field, among, eq⟩ := List.mem_map.mp mapped
  rw [visibleText?_empty] at eq
  have inner : (Text.trim field).toList.Sublist field.toList := (Text.isPart_trim field).sublist
  have middle : field.toList.Sublist (Text.dropReturns name).toList := by
    have part := Text.isPart_unfields_of_mem among
    rw [Text.unfields_fields] at part
    exact part.sublist
  have outer : (Text.dropReturns name).toList.Sublist name.toList := by
    rw [Text.toList_dropReturns]
    exact List.filter_sublist
  have spelled : Template.filled Template.unset (Text.trim field).toList = name.toList := by
    rw [← Template.toList_expand, eq]
  have literal : Template.filled Template.unset (Text.trim field).toList =
      (Text.trim field).toList := by
    apply Template.filled_eq_self_of_count_le
    rw [spelled]
    exact ((inner.trans middle).trans outer).count_le '$'
  have trimmed : Text.trim field = name := String.toList_injective (literal.symm.trans spelled)
  rw [trimmed] at inner
  have field_eq : field = name :=
    String.toList_injective ((middle.trans outer).antisymm inner)
  have kept : Text.dropReturns name = name :=
    String.toList_injective (outer.antisymm (inner.trans middle))
  subst field_eq
  exact
    { filled := bne_iff_ne.mp filled
      single := Text.notMem_of_mem_fields among
      free := by
        rw [← kept, Text.toList_dropReturns]
        simp
      trimmed := trimmed
      literal := Template.filled_eq_self_iff.mp (trimmed ▸ literal) }

end CommandLine

/-! ## The program -/

theorem Kernel.create_ok {config : Config} {files : Files} {k : Kernel}
    (made : create config files = .ok k) :
    ∃ store device, k = withParts config store device := by
  unfold create at made
  dsimp only at made
  split at made
  · cases made
    exact ⟨_, _, rfl⟩
  · split_ifs at made with found
    cases made
    exact ⟨_, _, rfl⟩

namespace CommandLine

/-- What is not yet there in a session that has just been opened: variables, scripts at work, lines
under way and messages. -/
structure Opened (s : Session) : Prop where
  registry : s.kernel.workspace.registry = Registry.standard
  globals : s.kernel.workspace.globals = {}
  scheduler : s.kernel.workspace.scheduler = {}
  driven : s.kernel.workspace.driven = true
  lines : s.kernel.lines = []
  bus : s.kernel.workspace.bus = {}

theorem openSession_ok {options : Options} {here : Surroundings} {s : Session}
    (opened : openSession options here = .ok s) : Opened s := by
  unfold openSession at opened
  dsimp only at opened
  cases made : Kernel.create (Config.terminal (options.folder.getD (here.folder.getD ".")))
    here.files with
  | error e =>
    rw [made] at opened
    cases opened
  | ok kernel =>
    obtain ⟨store, device, rfl⟩ := Kernel.create_ok made
    rw [made] at opened
    cases opened
    split <;> constructor <;> simp [Session.setJson, Kernel.withParts]

/-- A word that does not begin as an option does is the name of a script. -/
theorem ofArguments_singleton {name : String} (accepted : name.toList.head? ≠ some '-') :
    Plan.ofArguments {} [name] = .work { script := some name } := by
  have other (option : String) (dash : option.toList.head? = some '-') : name ≠ option := by
    rintro rfl
    exact accepted dash
  unfold Plan.ofArguments
  split
  case h_1 eq => cases eq
  case h_11 word rest _ _ _ _ _ _ _ _ _ eq =>
    obtain ⟨rfl, rfl⟩ := List.cons.inj eq
    simp [accepted, Plan.ofArguments]
  all_goals
    rename_i eq
    exact absurd (List.cons.inj eq).1 (other _ (by decide))

theorem startsBatch_run_name_iff {options : Options} {here : Surroundings} {s : Session}
    {name : String} (opened : openSession options here = .ok s)
    (loads : ∃ text, s.kernel.workspace.store.load name = .ok (some text)) :
    Line.StartsBatch [name] ("run " ++ name) s.kernel.workspace ↔ IsPlainArgument name := by
  have new := openSession_ok opened
  have builtins : s.kernel.workspace.registry.HoldsBuiltins :=
    new.registry ▸ Registry.standard_holdsBuiltins
  have startable : s.kernel.workspace.Startable none [name] :=
    { other := nofun
      distinct := List.nodup_singleton name
      idle := by simp [new.scheduler, Scheduler.names]
      loads := by simpa using loads }
  rw [Line.startsBatch_run_iff builtins new.driven startable (List.cons_ne_nil _ _), Line.batchOf,
    new.globals]
  constructor
  · intro asked
    exact isPlainArgument_of_mem (asked ▸ List.mem_cons_self)
  · exact IsPlainArgument.askedScripts

/-- A program that is given the name of a script runs the line of the command `run` with that name.
In the session that has just been opened this line starts the script, and waits for it alone,
exactly if the name has no spaces and carriage returns in it, no blanks at its ends, and no `$`
before another one or before `_`. -/
theorem argument_is_run_iff {name : String} {here : Surroundings} {s : Session}
    (accepted : name.toList.head? ≠ some '-')
    (opened : openSession { script := some name } here = .ok s)
    (loads : ∃ text, s.kernel.workspace.store.load name = .ok (some text)) :
    (∀ effort stdin, run effort [name] stdin here =
      let executed := s.run effort ("run " ++ name) ((inputLines stdin).map Text.dropLineEnding)
      { code := exitCode executed.evaluation, out := executed.output }) ∧
    (Line.StartsBatch [name] ("run " ++ name) s.kernel.workspace ↔ IsPlainArgument name) := by
  refine ⟨fun effort stdin => ?_, startsBatch_run_name_iff opened loads⟩
  simp only [run, ofArguments_singleton accepted, opened]
  rfl

/-- A working directory with a script in it. -/
def besides (name text : String) : Surroundings :=
  { files := ⟨[(⟨false, [name ++ ".neet"]⟩, .file (some text))]⟩ }

theorem intro_is_run :
    ∃ s, openSession { script := some "intro" } (besides "intro" "print hi") = .ok s ∧
      s.kernel.workspace.store.load "intro" = .ok (some "print hi") ∧
      IsPlainArgument "intro" ∧
      (∀ effort stdin, run effort ["intro"] stdin (besides "intro" "print hi") =
        let executed := s.run effort ("run " ++ "intro")
          ((inputLines stdin).map Text.dropLineEnding)
        { code := exitCode executed.evaluation, out := executed.output }) ∧
      Line.StartsBatch ["intro"] ("run " ++ "intro") s.kernel.workspace := by
  have plain : IsPlainArgument "intro" :=
    ⟨by decide, by decide, by decide, by decide, by decide⟩
  obtain ⟨s, opened, loads⟩ :
      ∃ s, openSession { script := some "intro" } (besides "intro" "print hi") = .ok s ∧
        s.kernel.workspace.store.load "intro" = .ok (some "print hi") := ⟨_, rfl, rfl⟩
  obtain ⟨runs, starts⟩ := argument_is_run_iff (by decide) opened ⟨_, loads⟩
  exact ⟨s, opened, loads, plain, runs, starts.mpr plain⟩

/-- A name with a space in it is cut there, though the store knows the script. -/
theorem spaced_name_is_cut :
    ∃ s, openSession { script := some "my script" } (besides "my script" "print hi") = .ok s ∧
      s.kernel.workspace.store.load "my script" = .ok (some "print hi") ∧
      Plan.ofArguments {} ["my script"] = .work { script := some "my script" } ∧
      ¬ Line.StartsBatch ["my script"] ("run " ++ "my script") s.kernel.workspace := by
  obtain ⟨s, opened, loads⟩ :
      ∃ s, openSession { script := some "my script" } (besides "my script" "print hi") = .ok s ∧
        s.kernel.workspace.store.load "my script" = .ok (some "print hi") := ⟨_, rfl, rfl⟩
  refine ⟨s, opened, loads, ofArguments_singleton (by decide), fun starts => ?_⟩
  have plain := (startsBatch_run_name_iff opened ⟨_, loads⟩).mp starts
  exact absurd plain.single (by decide)

end CommandLine

end LineScript
