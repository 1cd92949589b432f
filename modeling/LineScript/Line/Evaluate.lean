import LineScript.Line.Context
import LineScript.Line.Run

/-!
# Evaluating a line

`perform` carries out an action and `evaluate` finds the command of a line and performs it. The
lines that a command evaluates go the same way, one level deeper.
-/

namespace LineScript.Line

/-- What a line leaves behind for the one that evaluated it. -/
structure Ended where
  evaluation : Evaluation
  owner : Option Instance
  transcript : List Message

/-- A way to evaluate a line. -/
abbrev Evaluator :=
  Mode → String → Option Instance → List Message → Workspace → Run Ended

/-- Carry out an action; `nested` evaluates the lines it asks for. -/
def perform {α : Type} (nested : Evaluator) :
    Action α → Context → Workspace → Run (α × Context)
  | .done value, ctx, ws => .done (value, ctx) ws
  | .ask request next, ctx, ws =>
    let reply := ctx.answer ws request
    perform nested (next reply.1) reply.2.1 reply.2.2
  | .evaluate line quiet next, ctx, ws =>
    let mode : Mode := { pseudo := true, quiet := quiet || ctx.mode.quiet }
    (nested mode line ctx.owner ctx.transcript ws).bind fun e ws =>
      perform nested (next e.evaluation) (ctx.afterNested e.evaluation e.owner e.transcript) ws
  | .sleep duration next, ctx, ws =>
    Run.waitFor (.time (ws.timerAfter duration.milliseconds)) ws fun ws =>
      perform nested next ctx ws
  | .runScripts names next, ctx, ws =>
    match ws.startBatch (ctx.owner.map (·.name)) names with
    | .error e => perform nested (next (.error e)) ctx ws
    | .ok (started, ws) =>
      Run.waitFor (.batch started.batch) ws fun ws => perform nested (next (.ok ())) ctx ws
  | .readInput next, ctx, ws =>
    let asked := ws.askInput
    Run.waitFor (.input asked.2) asked.1 fun ws =>
      let read := ws.readInput asked.2
      perform nested (next read.1) ctx read.2

/-- The text of a line that counts: without blanks before it and without carriage returns. -/
def content (line : String) : String :=
  Text.dropReturns (Text.trimStart line)

/-- Blank lines and comments do nothing. -/
def isIdle (content : String) : Bool :=
  match content.toList with
  | [] => true
  | '#' :: _ => true
  | '/' :: '/' :: _ => true
  | _ => false

/-- What is reported for a name that no command has. -/
def unknownCommand (name : String) : String :=
  "'" ++ name ++ "' is not recognized as an internal command. Try using command 'help'"

/-- What is reported for a fault of a command. -/
def faultText (schema : Schema) : Fault → String
  | .usage => "Invalid usage!\n\n" ++ schema.name ++ " " ++ schema.usage
  | fault => fault.message

/-- What a context leaves behind. -/
def ended (ctx : Context) : Ended :=
  ⟨ctx.evaluation, ctx.owner, ctx.transcript⟩

/-- Evaluate a line; below it lines may be nested `depth - 1` deep. -/
def evaluate : Nat → Evaluator
  | 0, _, _, _, _, _ => .endless
  | depth + 1, mode, line, owner, transcript, ws =>
    if isIdle (content line) then .done ⟨{}, owner, transcript⟩ ws
    else
      let ctx : Context := { line, mode, owner, transcript }
      match Text.fields (content line) with
      | [] => .done ⟨{}, owner, transcript⟩ ws
      | name :: args =>
        match ws.registry.find? name with
        | none => .done (ended (ctx.report ws.config.errorColor (unknownCommand name))) ws
        | some command =>
          (perform (evaluate depth) (command.run args).run ctx ws).bind fun result ws =>
            match result.1 with
            | .ok () => .done (ended result.2) ws
            | .error fault =>
              .done (ended
                (result.2.report ws.config.errorColor (faultText command.schema fault))) ws

/-- How deep a command may go beyond what lines need by themselves. A command that sets a variable
between two lines that it evaluates can come back to a line that it is in. -/
def spareDepth : Nat := 100000

/-- How deep lines may be nested. Without a command that evaluates more than one line, a nest is
deeper than the first two terms only if it goes on for ever: a nested line is a part of the line
that evaluates it or a line of the source, and none comes back on the way down. `extent` is that
of the source. -/
def depthBound (line : String) (extent : Nat) : Nat :=
  line.toList.length + extent + spareDepth

/-- Evaluate a line that nobody owns, and publish what it says. -/
def runBare (line : String) (ws : Workspace) : Run Evaluation :=
  (evaluate (depthBound line 0) {} line none [] ws).bind fun e ws =>
    .done e.evaluation (ws.publish e.transcript)

/-- Run a line for the host: input is off until it is over. -/
def runRequest (line : String) (ws : Workspace) : Run Evaluation :=
  (runBare line ws.beginRequest).bind fun evaluation ws => .done evaluation ws.endRequest

end LineScript.Line
