import LineScript.Proofs.Line.Answer
import LineScript.Proofs.Line.Reading

/-!
# Journals

The evaluation of a line ends with few values, and what its commands asked for on the way is lost.
A journal keeps it: every request with its reply and every line that was evaluated on behalf of
another, however deep, each with the line whose command it was. The evaluation is given what it
finds after its waits; one that has to wait for more, or never ends, has a journal all the same, of
what it did so far.

`Line.journal` follows `Line.evaluate` step by step, and `Line.journal_result` says that the two
come to the same end.
-/

namespace LineScript

/-! ## The end of a run -/

/-- A value, the workspace it leaves behind and the workspaces that were not needed. -/
structure Finished (α : Type) where
  value : α
  last : Workspace
  left : List Workspace

namespace Run

variable {α β : Type}

/-- The end of a run that finds these workspaces after its waits, one after the other. -/
def finish : Run α → List Workspace → Option (Finished α)
  | .done value ws, found => some ⟨value, ws, found⟩
  | .await .., [] => none
  | .await _ _ next, later :: found => (next later).finish found
  | .endless, _ => none

theorem finish_bind (run : Run α) (f : α → Workspace → Run β) (found : List Workspace) :
    (run.bind f).finish found =
      (run.finish found).bind fun r => (f r.value r.last).finish r.left := by
  induction run generalizing found with
  | done value ws => rfl
  | await wait ws next ih =>
    cases found with
    | nil => rfl
    | cons later found => exact ih later found
  | endless => rfl

end Run

/-! ## Entries -/

/-- What the command of a line did. -/
inductive Deed where
  | asked (r : Request) (reply : r.Reply)
  | evaluated (line : String)

structure Entry where
  /-- The line whose command it was. -/
  line : String
  deed : Deed

namespace Entry

/-- The line that was evaluated. -/
def nested? (entry : Entry) : Option String :=
  match entry.deed with
  | .evaluated line => some line
  | .asked .. => none

/-- The text in which references were replaced. -/
def template? (entry : Entry) : Option String :=
  match entry.deed with
  | .asked (.expand template) _ => some template
  | _ => none

/-- The line that the script goes to next, if it was let go there. -/
def target? (entry : Entry) : Option Nat :=
  match entry.deed with
  | .asked r reply => r.granted? reply
  | .evaluated _ => none

end Entry

/-- What was done on the way to a value. -/
structure Journal (α : Type) where
  entries : List Entry
  result : Option (Finished α)

namespace Journal

variable {α β : Type}

def done (value : α) (ws : Workspace) (found : List Workspace) : Journal α :=
  ⟨[], some ⟨value, ws, found⟩⟩

/-- A journal that stops here. -/
def cut : Journal α :=
  ⟨[], none⟩

/-- An entry before the others. -/
def note (entry : Entry) (j : Journal α) : Journal α :=
  { j with entries := entry :: j.entries }

/-- One journal after the other. -/
def bind (j : Journal α) (f : α → Workspace → List Workspace → Journal β) : Journal β :=
  match j.result with
  | none => ⟨j.entries, none⟩
  | some r =>
    let rest := f r.value r.last r.left
    ⟨j.entries ++ rest.entries, rest.result⟩

/-- Wait, but not for what is there already. -/
def waitFor (wait : Wait) (ws : Workspace) (found : List Workspace)
    (next : Workspace → List Workspace → Journal α) : Journal α :=
  if wait.isOver ws then next ws found
  else
    match found with
    | [] => cut
    | later :: found => next later found

@[simp] theorem bind_result (j : Journal α) (f : α → Workspace → List Workspace → Journal β) :
    (j.bind f).result = j.result.bind fun r => (f r.value r.last r.left).result := by
  unfold bind
  cases j.result <;> rfl

theorem waitFor_result (wait : Wait) (ws : Workspace) (found : List Workspace)
    {next : Workspace → List Workspace → Journal α} {run : Workspace → Run α}
    (same : ∀ ws found, (next ws found).result = (run ws).finish found) :
    (waitFor wait ws found next).result = (Run.waitFor wait ws run).finish found := by
  unfold waitFor Run.waitFor
  split
  · exact same ws found
  · cases found with
    | nil => rfl
    | cons later found => exact same later found

end Journal

namespace Line

/-! ## The journal of a line -/

/-- A line that is to be evaluated. -/
structure Call where
  mode : Mode := {}
  line : String
  owner : Option Instance := none
  transcript : List Message := []

/-- Where its command begins. -/
def Call.context (call : Call) : Context :=
  { line := call.line, mode := call.mode, owner := call.owner, transcript := call.transcript }

/-- A line that the command in this context evaluates. -/
def nestedCall (ctx : Context) (line : String) (quiet : Bool) : Call where
  mode := { pseudo := true, quiet := quiet || ctx.mode.quiet }
  line := line
  owner := ctx.owner
  transcript := ctx.transcript

def Call.evaluate (call : Call) (evaluator : Evaluator) (ws : Workspace) : Run Ended :=
  evaluator call.mode call.line call.owner call.transcript ws

/-- A way to keep the journal of a line. -/
abbrev Recorder := Call → Workspace → List Workspace → Journal Ended

/-- The journal of an action; `nested` keeps those of the lines that it asks for. -/
def record {α : Type} (nested : Recorder) :
    Action α → Context → Workspace → List Workspace → Journal (α × Context)
  | .done value, ctx, ws, found => .done (value, ctx) ws found
  | .ask request next, ctx, ws, found =>
    let reply := ctx.answer ws request
    (record nested (next reply.1) reply.2.1 reply.2.2 found).note
      ⟨ctx.line, .asked request reply.1⟩
  | .evaluate line quiet next, ctx, ws, found =>
    ((nested (nestedCall ctx line quiet) ws found).bind fun e ws found =>
      record nested (next e.evaluation) (ctx.afterNested e.evaluation e.owner e.transcript) ws
        found).note ⟨ctx.line, .evaluated line⟩
  | .sleep duration next, ctx, ws, found =>
    .waitFor (.time (ws.timerAfter duration.milliseconds)) ws found fun ws found =>
      record nested next ctx ws found
  | .runScripts names next, ctx, ws, found =>
    match ws.startBatch (ctx.owner.map (·.name)) names with
    | .error e => record nested (next (.error e)) ctx ws found
    | .ok (started, ws) =>
      .waitFor (.batch started.batch) ws found fun ws found =>
        record nested (next (.ok ())) ctx ws found
  | .readInput next, ctx, ws, found =>
    let asked := ws.askInput
    .waitFor (.input asked.2) asked.1 found fun ws found =>
      let read := ws.readInput asked.2
      record nested (next read.1) ctx read.2 found

/-- The journal of a line; `nested` keeps those of the lines in it. -/
def recordLine (nested : Recorder) (call : Call) (ws : Workspace) (found : List Workspace) :
    Journal Ended :=
  match read ws.registry call.line with
  | .idle => .done ⟨{}, call.owner, call.transcript⟩ ws found
  | .unknown name =>
    .done (ended (call.context.report ws.config.errorColor (unknownCommand name))) ws found
  | .runs command args =>
    (record nested (command.run args).run call.context ws found).bind fun result ws found =>
      .done (leave command.schema ws.config.errorColor result) ws found

/-- The journal of a line; below it lines may be nested `depth - 1` deep. -/
def journal : Nat → Recorder
  | 0 => fun _ _ _ => .cut
  | depth + 1 => recordLine (journal depth)

/-! ## A journal comes to the end of its line -/

theorem record_result {α : Type} {nested : Recorder} {evaluator : Evaluator}
    (same : ∀ call ws found,
      (nested call ws found).result = (call.evaluate evaluator ws).finish found)
    (action : Action α) (ctx : Context) (ws : Workspace) (found : List Workspace) :
    (record nested action ctx ws found).result =
      (perform evaluator action ctx ws).finish found := by
  induction action generalizing ctx ws found with
  | done value => rfl
  | ask r next ih => exact ih _ _ _ found
  | evaluate line quiet next ih =>
    simp only [record, perform, Journal.note, Journal.bind_result, same, Run.finish_bind, ih]
    rfl
  | sleep duration next ih => exact Journal.waitFor_result _ _ found fun ws found => ih ctx ws found
  | runScripts names next ih =>
    simp only [record, perform]
    cases ws.startBatch (ctx.owner.map (·.name)) names with
    | error e => exact ih _ ctx ws found
    | ok batch => exact Journal.waitFor_result _ _ found fun ws found => ih _ ctx ws found
  | readInput next ih => exact Journal.waitFor_result _ _ found fun ws found => ih _ ctx _ found

/-- The journal of a line has its result, by induction on how deep lines may be nested. -/
theorem journal_result (depth : Nat) (call : Call) (ws : Workspace) (found : List Workspace) :
    (journal depth call ws found).result = (call.evaluate (evaluate depth) ws).finish found := by
  induction depth generalizing call ws found with
  | zero => rfl
  | succ depth ih =>
    simp only [journal, Call.evaluate, evaluate_succ]
    unfold recordLine
    cases read ws.registry call.line with
    | idle => rfl
    | unknown name => rfl
    | runs command args =>
      simp only [Journal.bind_result, Run.finish_bind, record_result ih]
      rfl

end Line

end LineScript
