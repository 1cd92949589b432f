import LineScript.Line.Evaluate

/-!
# Ticks

A tick evaluates the line that an instance is on. What the line said is published in one piece,
unless the instance was stopped in the meantime.
-/

namespace LineScript

/-- How an instance ends by itself. -/
inductive EndReason where
  /-- It ran past its last line. -/
  | completed
  /-- A line reported an error. -/
  | failed
  deriving DecidableEq

/-- What becomes of an instance after a tick. -/
inductive TickOutcome where
  | running
  | ended (reason : EndReason)
  /-- It was stopped while the tick was under way. -/
  | cancelled
  deriving DecidableEq

/-- An instance after a tick. -/
structure Ticked where
  inst : Instance
  outcome : TickOutcome

namespace Instance

/-- Where an instance goes after a line that was not cut short. -/
def advance (i : Instance) (evaluation : Evaluation) : Ticked :=
  if evaluation.failed then ⟨i, .ended .failed⟩
  else
    match evaluation.jump with
    | some target => ⟨{ i with counter := target }, .running⟩
    | none =>
      if i.counter + 1 < i.source.length then ⟨{ i with counter := i.counter + 1 }, .running⟩
      else ⟨i, .ended .completed⟩

/-- The end of a tick: what the line said is published and the instance goes on, unless it was
stopped. -/
def conclude (i : Instance) (e : Line.Ended) (ws : Workspace) : Ticked × Workspace :=
  let i := e.owner.getD i
  if ws.isCurrent i then (i.advance e.evaluation, ws.publish e.transcript)
  else (⟨i, .cancelled⟩, ws)

/-- Evaluate the line that the instance is on. -/
def tick (i : Instance) (ws : Workspace) : Run Ticked :=
  match i.source[i.counter]? with
  | none => .done ⟨i, .ended .completed⟩ ws
  | some line =>
    (Line.evaluate (Line.depthBound line i.extent) {} line (some i) [] ws).bind fun e ws =>
      let concluded := i.conclude e ws
      .done concluded.1 concluded.2

end Instance

end LineScript
