import LineScript.Proofs.Line.Reading
import LineScript.Script.Tick

/-!
# Sagas

A run is over or waits, and what it did before is seen in the workspace that it leaves behind. Not
everything shows there: a start that was refused leaves no trace. A saga is a run that notes, on
its way from one wait to the next, whatever a line of a script has to do with others: that it
writes a global variable or calls the device, and that it asks for scripts to be started or for
input. Without the notes it is the run (`Saga.run_tick`).
-/

namespace LineScript

/-- What a line has to do with others. -/
inductive Contact where
  /-- It asks for scripts to be started, and is refused or not. -/
  | start (refusal : Option StartError)
  /-- It asks for input. -/
  | input
  /-- It has the device do something. -/
  | act
  /-- It writes a global variable. -/
  | global
  deriving DecidableEq

/-- What a request of a line with an owner has to do with others. To be refused an assignment and to
remove what is not there is not to write. -/
def Context.contact? (ctx : Context) (ws : Workspace) : Request → Option Contact
  | .act _ => some .act
  | .assignGlobal name value =>
    if (ws.globals.assign name value).isOk then some .global else none
  | .update name value =>
    let isLocal := (ctx.locals.map (·.contains name)).getD false
    if !isLocal && ws.globals.contains name && (ws.globals.assign name value).isOk then some .global
    else none
  | .removeGlobal name => if ws.globals.contains name then some .global else none
  | _ => none

inductive Saga (α : Type) where
  | done (value : α) (workspace : Workspace)
  | note (contact : Contact) (rest : Saga α)
  | await (wait : Wait) (workspace : Workspace) (next : Workspace → Saga α)
  /-- Lines are nested without end. -/
  | endless

namespace Saga

variable {α β : Type}

/-- One saga after the other. -/
def bind : Saga α → (α → Workspace → Saga β) → Saga β
  | .done value ws, f => f value ws
  | .note contact rest, f => .note contact (rest.bind f)
  | .await wait ws next, f => .await wait ws fun ws => (next ws).bind f
  | .endless, _ => .endless

/-- Wait, but not for what is there already. -/
def waitFor (wait : Wait) (ws : Workspace) (next : Workspace → Saga α) : Saga α :=
  if wait.isOver ws then next ws else .await wait ws next

/-- The saga with a note before it, if there is one. -/
def noted : Option Contact → Saga α → Saga α
  | some contact, saga => .note contact saga
  | none, saga => saga

/-- What is noted before the next wait. -/
def contacts : Saga α → List Contact
  | .note contact rest => contact :: rest.contacts
  | _ => []

/-- How it goes on after the next wait. -/
def rest? : Saga α → Option (Workspace → Saga α)
  | .note _ rest => rest.rest?
  | .await _ _ next => some next
  | _ => none

/-- The run without the notes. -/
def run : Saga α → Run α
  | .done value ws => .done value ws
  | .note _ rest => rest.run
  | .await wait ws next => .await wait ws fun ws => (next ws).run
  | .endless => .endless

theorem run_bind (saga : Saga α) (f : α → Workspace → Saga β) :
    (saga.bind f).run = saga.run.bind fun value ws => (f value ws).run := by
  induction saga with
  | done value ws => rfl
  | note contact rest ih => exact ih
  | await wait ws next ih =>
    simp only [bind, run, Run.bind]
    congr 1
    funext later
    exact ih later
  | endless => rfl

theorem run_waitFor (wait : Wait) (ws : Workspace) (next : Workspace → Saga α) :
    (waitFor wait ws next).run = Run.waitFor wait ws fun ws => (next ws).run := by
  unfold waitFor Run.waitFor
  split <;> rfl

theorem run_noted (contact? : Option Contact) (saga : Saga α) :
    (noted contact? saga).run = saga.run := by
  cases contact? <;> rfl

theorem mem_contacts_bind {saga : Saga α} {f : α → Workspace → Saga β} {contact : Contact}
    (mem : contact ∈ saga.contacts) : contact ∈ (saga.bind f).contacts := by
  induction saga with
  | note first rest ih =>
    rcases List.mem_cons.mp mem with rfl | later
    · exact List.mem_cons_self
    · exact List.mem_cons_of_mem _ (ih later)
  | _ => cases mem

/-! ## The sagas of lines and ticks -/

/-- A way to tell the saga of a line. -/
abbrev Teller :=
  Mode → String → Option Instance → List Message → Workspace → Saga Line.Ended

/-- The saga of an action; `nested` tells those of the lines that it asks for. -/
def perform (nested : Teller) : Action α → Context → Workspace → Saga (α × Context)
  | .done value, ctx, ws => .done (value, ctx) ws
  | .ask request next, ctx, ws =>
    let reply := ctx.answer ws request
    noted (ctx.contact? ws request) (perform nested (next reply.1) reply.2.1 reply.2.2)
  | .evaluate line quiet next, ctx, ws =>
    let mode : Mode := { pseudo := true, quiet := quiet || ctx.mode.quiet }
    (nested mode line ctx.owner ctx.transcript ws).bind fun e ws =>
      perform nested (next e.evaluation) (ctx.afterNested e.evaluation e.owner e.transcript) ws
  | .sleep duration next, ctx, ws =>
    waitFor (.time (ws.timerAfter duration.milliseconds)) ws fun ws => perform nested next ctx ws
  | .runScripts names next, ctx, ws =>
    match ws.startBatch (ctx.owner.map (·.name)) names with
    | .error e => .note (.start (some e)) (perform nested (next (.error e)) ctx ws)
    | .ok (started, ws) =>
      .note (.start none)
        (waitFor (.batch started.batch) ws fun ws => perform nested (next (.ok ())) ctx ws)
  | .readInput next, ctx, ws =>
    let asked := ws.askInput
    .note .input (waitFor (.input asked.2) asked.1 fun ws =>
      let read := ws.readInput asked.2
      perform nested (next read.1) ctx read.2)

/-- The saga of a line; below it lines may be nested `depth - 1` deep. -/
def evaluate : Nat → Teller
  | 0, _, _, _, _, _ => .endless
  | depth + 1, mode, line, owner, transcript, ws =>
    let ctx : Context := { line, mode, owner, transcript }
    match Line.read ws.registry line with
    | .idle => .done ⟨{}, owner, transcript⟩ ws
    | .unknown name =>
      .done (Line.ended (ctx.report ws.config.errorColor (Line.unknownCommand name))) ws
    | .runs command args =>
      (perform (evaluate depth) (command.run args).run ctx ws).bind fun result ws =>
        .done (Line.leave command.schema ws.config.errorColor result) ws

/-- The saga of a tick. -/
def tick (i : Instance) (ws : Workspace) : Saga Ticked :=
  match i.source[i.counter]? with
  | none => .done ⟨i, .ended .completed⟩ ws
  | some line =>
    (evaluate (Line.depthBound line i.extent) {} line (some i) [] ws).bind fun e ws =>
      let concluded := i.conclude e ws
      .done concluded.1 concluded.2

theorem run_perform {nested : Teller} {evaluator : Line.Evaluator}
    (same : ∀ mode line owner transcript ws,
      (nested mode line owner transcript ws).run = evaluator mode line owner transcript ws)
    (action : Action α) (ctx : Context) (ws : Workspace) :
    (perform nested action ctx ws).run = Line.perform evaluator action ctx ws := by
  induction action generalizing ctx ws with
  | done value => rfl
  | ask r next ih =>
    rw [perform, run_noted]
    exact ih _ _ _
  | evaluate line quiet next ih =>
    simp only [perform, Line.perform, run_bind, same, ih]
  | sleep duration next ih => simp only [perform, Line.perform, run_waitFor, ih]
  | runScripts names next ih =>
    simp only [perform, Line.perform]
    cases ws.startBatch (ctx.owner.map (·.name)) names with
    | error e => exact ih _ ctx ws
    | ok result => simp only [run, run_waitFor, ih]
  | readInput next ih => simp only [perform, Line.perform, run, run_waitFor, ih]

/-- By induction on how deep lines may be nested. -/
theorem run_evaluate (depth : Nat) (mode : Mode) (line : String) (owner : Option Instance)
    (transcript : List Message) (ws : Workspace) :
    (evaluate depth mode line owner transcript ws).run =
      Line.evaluate depth mode line owner transcript ws := by
  induction depth generalizing mode line owner transcript ws with
  | zero => rfl
  | succ depth ih =>
    rw [Line.evaluate_succ]
    unfold evaluate
    dsimp only
    cases Line.read ws.registry line with
    | idle => rfl
    | unknown name => rfl
    | runs command args => simp only [run_bind, run_perform ih, run]

/-- The saga of a tick is the tick, with notes. -/
theorem run_tick (i : Instance) (ws : Workspace) : (tick i ws).run = i.tick ws := by
  unfold tick Instance.tick
  cases i.source[i.counter]? with
  | none => rfl
  | some line => simp only [run_bind, run_evaluate, run]

end Saga

end LineScript
