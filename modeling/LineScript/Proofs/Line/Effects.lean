import LineScript.Line.Evaluate
import Mathlib.Logic.Relation

/-!
# What a line does to the workspace

A line works on the workspace in few ways: it answers requests of its command, it asks for input
and reads it, and it starts batches. Between two waits it does so any number of times; while it
waits the workspace is in other hands. `Run.Obeys` says this of a run, and `evaluate_actsFor` that
the evaluation of a line is such a run, however deep its lines are nested and whatever its
commands are. Of its owner a line changes nothing but variables and settings. `Line.Serves` is what
a line does that the host runs.
-/

namespace LineScript

/-! ## Runs that keep to some steps -/

namespace Run

variable {α β : Type} {E : Workspace → Workspace → Prop}
  {P : Workspace → α → Workspace → Prop} {Q : Workspace → β → Workspace → Prop}
  {ws ws' : Workspace}

/-- From this workspace to its next wait the run does `E`, and with its end it does `P`. It goes
on in this way from whatever workspace it finds after a wait. -/
inductive Obeys (E : Workspace → Workspace → Prop) (P : Workspace → α → Workspace → Prop) :
    Workspace → Run α → Prop where
  | done {ws last : Workspace} {value : α} (final : P ws value last) :
      Obeys E P ws (.done value last)
  | await {ws last : Workspace} {wait : Wait} {next : Workspace → Run α} (here : E ws last)
      (rest : ∀ later, Obeys E P later (next later)) : Obeys E P ws (.await wait last next)
  | endless {ws : Workspace} : Obeys E P ws .endless

/-- Something may come before. -/
theorem Obeys.after {run : Run α} (h : run.Obeys E P ws')
    (step : ∀ last, E ws' last → E ws last)
    (final : ∀ value last, P ws' value last → P ws value last) : run.Obeys E P ws := by
  cases h with
  | done ended => exact .done (final _ _ ended)
  | await here rest => exact .await (step _ here) rest
  | endless => exact .endless

theorem Obeys.bind {run : Run α} {f : α → Workspace → Run β} (h : run.Obeys E P ws)
    (rest : ∀ ws value last, P ws value last → (f value last).Obeys E Q ws) :
    (run.bind f).Obeys E Q ws := by
  induction h with
  | done ended => exact rest _ _ _ ended
  | await here _ ih => exact .await here ih
  | endless => exact .endless

theorem Obeys.waitFor {wait : Wait} {next : Workspace → Run α} (here : E ws ws')
    (now : (next ws').Obeys E P ws) (later : ∀ later, (next later).Obeys E P later) :
    (Run.waitFor wait ws' next).Obeys E P ws := by
  unfold Run.waitFor
  split
  · exact now
  · exact .await here later

end Run

/-! ## The owner -/

/-- The part of an instance that no line of it changes. -/
def Instance.fixed (i : Instance) : Instance :=
  { i with locals := {}, settings := {} }

theorem Instance.entry_eq_of_fixed_eq {i j : Instance} (h : i.fixed = j.fixed) :
    i.entry = j.entry := by
  show i.fixed.entry = j.fixed.entry
  rw [h]

namespace Context

/-- Set in place, a variable or a setting of the owner leaves the rest of it alone. -/
theorem answer_owner (ctx : Context) (ws : Workspace) (r : Request) :
    (ctx.answer ws r).2.1.owner.map Instance.fixed = ctx.owner.map Instance.fixed := by
  have assigned : ∀ name value,
      (ctx.assign ws name value).2.1.owner.map Instance.fixed =
        ctx.owner.map Instance.fixed := by
    intro name value
    unfold assign
    split
    · rename_i owner same
      split
      · simp [same, Instance.fixed]
      · rfl
    · split <;> rfl
  have globally : ∀ name value, (ctx.assignGlobal ws name value).2.1 = ctx := by
    intro name value
    unfold assignGlobal
    split <;> rfl
  cases r with
  | write text style => cases quiet : ctx.mode.quiet <;> simp [answer, write, display, quiet, say]
  | respond text style =>
    cases quiet : ctx.mode.quiet <;> simp [answer, respond, display, quiet, say]
  | jump index =>
    cases owner : ctx.owner with
    | none => simp [answer, goTo, owner]
    | some o => by_cases inside : index < o.source.length <;> simp [answer, goTo, owner, inside]
  | assign name value => exact assigned name value
  | assignGlobal name value => exact congrArg (·.owner.map Instance.fixed) (globally name value)
  | update name value =>
    simp only [answer, update]
    split
    · exact congrArg (·.owner.map Instance.fixed) (globally name value)
    · exact assigned name value
  | remove name =>
    cases owner : ctx.owner <;> simp [answer, remove, owner, Instance.fixed]
  | setTypingSpeed speed =>
    cases owner : ctx.owner <;> simp [answer, setSettings, owner, Instance.fixed]
  | _ => rfl

/-- An answer changes nothing but variables, settings, the device and the source of random
numbers. -/
theorem answer_workspace (ctx : Context) (ws : Workspace) (r : Request) :
    ∃ globals terminal device entropy,
      (ctx.answer ws r).2.2 = { ws with globals, terminal, device, entropy } := by
  have assigned : ∀ name value, ∃ globals terminal device entropy,
      (ctx.assign ws name value).2.2 = { ws with globals, terminal, device, entropy } := by
    intro name value
    unfold assign
    split
    · split <;> exact ⟨_, _, _, _, rfl⟩
    · split <;> exact ⟨_, _, _, _, rfl⟩
  have globally : ∀ name value, ∃ globals terminal device entropy,
      (ctx.assignGlobal ws name value).2.2 = { ws with globals, terminal, device, entropy } := by
    intro name value
    unfold assignGlobal
    split <;> exact ⟨_, _, _, _, rfl⟩
  cases r with
  | assign name value => exact assigned name value
  | assignGlobal name value => exact globally name value
  | update name value =>
    simp only [answer, update]
    split
    · exact globally name value
    · exact assigned name value
  | remove name =>
    cases owner : ctx.owner <;>
      exact ⟨_, _, _, _, by simp only [answer, remove, owner]; rfl⟩
  | setTypingSpeed speed =>
    cases owner : ctx.owner <;>
      exact ⟨_, _, _, _, by simp only [answer, setSettings, owner]; rfl⟩
  | _ => exact ⟨_, _, _, _, rfl⟩

end Context

/-! ## The steps of a line -/

namespace Line

/-- What a line does by itself. -/
inductive Touch : Workspace → Workspace → Prop where
  | answer {ws : Workspace} (ctx : Context) (r : Request) : Touch ws (ctx.answer ws r).2.2
  | ask {ws : Workspace} : Touch ws ws.askInput.1
  | read {ws : Workspace} (ticket : Nat) : Touch ws (ws.readInput ticket).2

/-- What a line does: something by itself, or it starts a batch in the name of its owner. -/
inductive Effect (invoker : Option String) : Workspace → Workspace → Prop where
  | touch {ws ws' : Workspace} (h : Touch ws ws') : Effect invoker ws ws'
  | start {ws ws' : Workspace} {names : List String} {started : Workspace.Started}
      (h : ws.startBatch invoker names = .ok (started, ws')) : Effect invoker ws ws'

/-- What a line does between two waits. -/
abbrev Effects (invoker : Option String) : Workspace → Workspace → Prop :=
  Relation.ReflTransGen (Effect invoker)

/-- A line alone neither changes the scheduler nor hands instances to the driver, and says no more
than whether input is accepted. -/
theorem Touch.frame {ws ws' : Workspace} (h : Touch ws ws') :
    ws'.scheduler = ws.scheduler ∧ ws'.inbox = ws.inbox ∧
      ∃ said, ws'.bus.pending.toList = ws.bus.pending.toList ++ said ∧
        ∀ m ∈ said, ∃ enabled, m = .input enabled := by
  cases h with
  | answer ctx r =>
    obtain ⟨globals, terminal, device, entropy, eq⟩ := ctx.answer_workspace ws r
    rw [eq]
    exact ⟨rfl, rfl, [], by simp, by simp⟩
  | ask =>
    refine ⟨rfl, rfl, [.input true], ?_, by simp⟩
    simp [Workspace.askInput, Workspace.push]
  | read ticket =>
    refine ⟨rfl, rfl, [.input (ws.busy == 0)], ?_, ?_⟩
    · simp [Workspace.readInput, Workspace.push, Workspace.leaveQueue]
    · exact fun m hm => ⟨_, List.mem_singleton.mp hm⟩

/-- The run does the steps of a line of this owner, and `owner` is at its end the same as before
but for variables and settings. -/
def ActsFor {α : Type} (who : Option Instance) (owner : α → Option Instance) (ws : Workspace)
    (run : Run α) : Prop :=
  run.Obeys (Effects (who.map (·.name)))
    (fun ws value last => Effects (who.map (·.name)) ws last ∧
      (owner value).map Instance.fixed = who.map Instance.fixed) ws

section ActsFor

variable {α β : Type} {who : Option Instance} {owner : α → Option Instance}
  {owner' : β → Option Instance} {ws ws' : Workspace}

theorem ActsFor.after {run : Run α} (first : Effects (who.map (·.name)) ws ws')
    (h : ActsFor who owner ws' run) : ActsFor who owner ws run :=
  Run.Obeys.after h (fun _ rest => first.trans rest)
    (fun _ _ rest => ⟨first.trans rest.1, rest.2⟩)

theorem ActsFor.bind {run : Run α} {f : α → Workspace → Run β} (h : ActsFor who owner ws run)
    (rest : ∀ value last, (owner value).map Instance.fixed = who.map Instance.fixed →
      ActsFor who owner' last (f value last)) : ActsFor who owner' ws (run.bind f) :=
  Run.Obeys.bind h fun _ value last ended => (rest value last ended.2).after ended.1

theorem ActsFor.waitFor {wait : Wait} {next : Workspace → Run α}
    (first : Effects (who.map (·.name)) ws ws')
    (rest : ∀ later, ActsFor who owner later (next later)) :
    ActsFor who owner ws (Run.waitFor wait ws' next) :=
  Run.Obeys.waitFor first ((rest ws').after first) rest

theorem name_eq_of_fixed_eq {a b : Option Instance}
    (h : a.map Instance.fixed = b.map Instance.fixed) : a.map (·.name) = b.map (·.name) := by
  have names := congrArg (Option.map (·.name)) h
  simpa [Function.comp_def, Instance.fixed] using names

/-- The lines that an evaluator evaluates do their steps and no others. -/
def Orderly (evaluator : Evaluator) : Prop :=
  ∀ mode line owner transcript ws (who : Option Instance),
    owner.map Instance.fixed = who.map Instance.fixed →
      ActsFor who Ended.owner ws (evaluator mode line owner transcript ws)

/-- An action keeps to the steps of a line if the lines that it evaluates do. -/
theorem perform_actsFor {nested : Evaluator} (orderly : Orderly nested) (action : Action α)
    (ctx : Context) (ws : Workspace)
    (mine : ctx.owner.map Instance.fixed = who.map Instance.fixed) :
    ActsFor who (fun result : α × Context => result.2.owner) ws
      (perform nested action ctx ws) := by
  induction action generalizing ctx ws with
  | done value => exact .done ⟨.refl, mine⟩
  | ask r next ih =>
    refine ActsFor.after (.single (.touch (.answer ctx r))) (ih _ _ _ ?_)
    rw [Context.answer_owner, mine]
  | evaluate line quiet next ih =>
    exact ActsFor.bind (orderly _ _ _ _ ws who mine) fun e last kept => ih _ _ last kept
  | sleep duration next ih => exact ActsFor.waitFor .refl fun later => ih ctx later mine
  | runScripts names next ih =>
    simp only [perform]
    split
    · exact ih _ ctx ws mine
    · rename_i started last ok
      rw [name_eq_of_fixed_eq mine] at ok
      exact ActsFor.waitFor (.single (.start ok)) fun later => ih _ ctx later mine
  | readInput next ih =>
    refine ActsFor.waitFor (.single (.touch .ask)) fun later => ?_
    exact ActsFor.after (.single (.touch (.read _))) (ih _ ctx _ mine)

/-- Every line keeps to its steps, by induction on how deep lines may be nested. -/
theorem evaluate_orderly (depth : Nat) : Orderly (evaluate depth) := by
  induction depth with
  | zero =>
    intro mode line owner transcript ws who mine
    rw [evaluate]
    exact .endless
  | succ depth ih =>
    intro mode line owner transcript ws who mine
    have unchanged : ActsFor who Ended.owner ws (.done ⟨{}, owner, transcript⟩ ws) :=
      .done ⟨.refl, mine⟩
    rw [evaluate]
    by_cases idle : isIdle (content line) = true
    · rw [if_pos idle]
      exact unchanged
    · rw [if_neg idle]
      cases Text.fields (content line) with
      | nil => exact unchanged
      | cons name args =>
        let ctx : Context := { line, mode, owner, transcript }
        cases found : ws.registry.find? name with
        | none =>
          simp only [found]
          exact .done ⟨.refl, mine⟩
        | some command =>
          simp only [found]
          refine ActsFor.bind (perform_actsFor ih _ ctx ws mine) fun result last kept => ?_
          cases result.1 with
          | ok _ => exact .done ⟨.refl, kept⟩
          | error _ => exact .done ⟨.refl, kept⟩

theorem evaluate_actsFor (depth : Nat) (mode : Mode) (line : String) (owner : Option Instance)
    (transcript : List Message) (ws : Workspace) :
    ActsFor owner Ended.owner ws (evaluate depth mode line owner transcript ws) :=
  evaluate_orderly depth mode line owner transcript ws owner rfl

end ActsFor

/-- A run that does the steps of a bare line, publishes what it has said, and ends the request of
the host. -/
def Serves (ws : Workspace) (run : Run Evaluation) : Prop :=
  run.Obeys (Effects none)
    (fun ws _ last => ∃ before said, Effects none ws before ∧
      last = (before.publish said).endRequest) ws

/-- A line that the host runs does so from where its request has begun. -/
theorem runRequest_serves (line : String) (ws : Workspace) :
    Serves ws.beginRequest (runRequest line ws) := by
  have evaluated := evaluate_actsFor (depthBound line 0) {} line none [] ws.beginRequest
  unfold runRequest runBare
  -- The depth is a large number, which must not be computed.
  generalize evaluate (depthBound line 0) {} line none [] ws.beginRequest = run at evaluated ⊢
  have published : (run.bind fun e ws => .done e.evaluation (ws.publish e.transcript)).Obeys
      (Effects none)
      (fun ws _ last => ∃ before said, Effects none ws before ∧ last = before.publish said)
      ws.beginRequest := by
    refine Run.Obeys.bind evaluated ?_
    rintro ws e last ⟨steps, -⟩
    exact .done ⟨last, e.transcript, steps, rfl⟩
  refine Run.Obeys.bind published ?_
  rintro ws evaluation last ⟨before, said, steps, rfl⟩
  exact .done ⟨before, said, steps, rfl⟩

end Line

end LineScript
