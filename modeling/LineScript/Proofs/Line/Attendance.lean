import LineScript.Proofs.Line.Answer
import LineScript.Proofs.Line.Reading
import LineScript.Proofs.Script.Tick
import LineScript.Proofs.Workspace.Start

/-!
# A line waits for what it starts

A line that starts scripts waits for them at once: a batch with members is not complete when it
has just started. So of all that a line does between two waits only the last thing can be the start
of scripts, and then the line waits for that batch. All else leaves the active set alone.

* `Run.Heeds` is `Run.Obeys` with an eye on what a run waits for.
* `Line.Stays` is what a line does without starting a script, and `Line.Pauses` how it comes to a
  wait.
* `evaluate_attends` says so of every line, `Instance.tick_attends` of every tick and
  `runRequest_attends` of every line that the host runs.

What a line says is text to read; only the operations of the workspace tell about scripts.
-/

namespace LineScript

/-! ## Runs and their waits -/

namespace Run

variable {α β : Type} {E : Workspace → Wait → Workspace → Prop}
  {P : Workspace → α → Workspace → Prop} {Q : Workspace → β → Workspace → Prop}
  {ws ws' : Workspace}

/-- From this workspace to its next wait the run does what `E` has for that wait, and with its end
it does `P`. It goes on in this way from whatever workspace it finds after a wait. -/
inductive Heeds (E : Workspace → Wait → Workspace → Prop) (P : Workspace → α → Workspace → Prop) :
    Workspace → Run α → Prop where
  | done {ws last : Workspace} {value : α} (final : P ws value last) :
      Heeds E P ws (.done value last)
  | await {ws last : Workspace} {wait : Wait} {next : Workspace → Run α} (here : E ws wait last)
      (rest : ∀ later, Heeds E P later (next later)) : Heeds E P ws (.await wait last next)
  | endless {ws : Workspace} : Heeds E P ws .endless

/-- Something may come before. -/
theorem Heeds.after {run : Run α} (h : run.Heeds E P ws')
    (step : ∀ wait last, E ws' wait last → E ws wait last)
    (final : ∀ value last, P ws' value last → P ws value last) : run.Heeds E P ws := by
  cases h with
  | done ended => exact .done (final _ _ ended)
  | await here rest => exact .await (step _ _ here) rest
  | endless => exact .endless

theorem Heeds.bind {run : Run α} {f : α → Workspace → Run β} (h : run.Heeds E P ws)
    (rest : ∀ ws value last, P ws value last → (f value last).Heeds E Q ws) :
    (run.bind f).Heeds E Q ws := by
  induction h with
  | done ended => exact rest _ _ _ ended
  | await here _ ih => exact .await here ih
  | endless => exact .endless

end Run

/-- A message that is there to be read. -/
def Message.isSpeech : Message → Bool
  | .output .. => true
  | .error .. => true
  | .clear => true
  | _ => false

namespace Line

/-! ## Steps without a start -/

/-- What a line does without starting a script: something by itself, or it starts a batch of
none. -/
inductive Still (invoker : Option String) : Workspace → Workspace → Prop where
  | touch {ws ws' : Workspace} (h : Touch ws ws') : Still invoker ws ws'
  | startNone {ws ws' : Workspace} {started : Workspace.Started}
      (h : ws.startBatch invoker [] = .ok (started, ws')) : Still invoker ws ws'

abbrev Stays (invoker : Option String) : Workspace → Workspace → Prop :=
  Relation.ReflTransGen (Still invoker)

/-- How a line comes to a wait: it has started no script and does not wait for a batch, or it has
just started the batch that it waits for. -/
inductive Pauses (invoker : Option String) (ws : Workspace) : Wait → Workspace → Prop where
  | rests {wait : Wait} {last : Workspace} (still : Stays invoker ws last)
      (other : ∀ id, wait ≠ .batch id) : Pauses invoker ws wait last
  | starts {names : List String} {started : Workspace.Started} {before last : Workspace}
      (still : Stays invoker ws before)
      (ok : before.startBatch invoker names = .ok (started, last)) :
      Pauses invoker ws (.batch started.batch) last

variable {invoker : Option String} {ws ws' ws'' last : Workspace}

theorem Pauses.after {wait : Wait} (first : Stays invoker ws ws')
    (h : Pauses invoker ws' wait last) : Pauses invoker ws wait last := by
  cases h with
  | rests still other => exact .rests (first.trans still) other
  | starts still ok => exact .starts (first.trans still) ok

/-- What has happened between two workspaces, if no script has started or ended: batches of none
have been counted, and the front end was told of nothing but input. -/
structure Calm (ws ws' : Workspace) : Prop where
  scheduler : ∃ n, ws'.scheduler =
    { ws.scheduler with lastBatch := ws.scheduler.lastBatch + n }
  inbox : ws'.inbox = ws.inbox
  told : ∃ said, ws'.bus.pending.toList = ws.bus.pending.toList ++ said ∧
    ∀ m ∈ said, ∃ enabled, m = .input enabled

theorem Calm.refl (ws : Workspace) : Calm ws ws :=
  ⟨⟨0, rfl⟩, rfl, [], by simp, by simp⟩

theorem Calm.trans (first : Calm ws ws') (second : Calm ws' ws'') : Calm ws ws'' := by
  obtain ⟨⟨n, scheduler⟩, inbox, said, told, inputs⟩ := first
  obtain ⟨⟨m, scheduler'⟩, inbox', said', told', inputs'⟩ := second
  refine ⟨⟨n + m, ?_⟩, inbox'.trans inbox, said ++ said', ?_, ?_⟩
  · rw [scheduler', scheduler]
    simp only [Nat.add_assoc]
  · rw [told', told, List.append_assoc]
  · intro message mem
    exact (List.mem_append.mp mem).elim (inputs message) (inputs' message)

theorem Still.calm (h : Still invoker ws ws') : Calm ws ws' := by
  cases h with
  | touch touch =>
    obtain ⟨scheduler, inbox, told⟩ := touch.frame
    exact ⟨⟨0, scheduler⟩, inbox, told⟩
  | startNone ok =>
    obtain ⟨-, scripts, e, names, new, -, rfl⟩ := Workspace.startBatch_ok ok
    obtain rfl := List.map_eq_nil_iff.mp names
    have messages : e.messages = [] := new.messages
    exact ⟨⟨1, new.scheduler_of_nil⟩, by simp [new.instances], [],
      by simp [Workspace.publish, messages], by simp⟩

theorem Stays.calm (h : Stays invoker ws ws') : Calm ws ws' := by
  induction h with
  | refl => exact .refl _
  | tail _ step ih => exact ih.trans step.calm

/-! ## Lines -/

/-- What belongs to a line of an owner: the owner, but for variables and settings, and nothing said
but what is there to be read. -/
structure Belongs (who owner : Option Instance) (transcript : List Message) : Prop where
  owner : owner.map Instance.fixed = who.map Instance.fixed
  speech : ∀ m ∈ transcript, m.isSpeech = true

section

variable {α β : Type} {who : Option Instance} {P : α → Prop} {Q : β → Prop}

theorem Belongs.say {owner : Option Instance} {transcript : List Message}
    (h : Belongs who owner transcript) {m : Message} (speech : m.isSpeech = true) :
    Belongs who owner (transcript ++ [m]) := by
  refine ⟨h.owner, fun message mem => ?_⟩
  rcases List.mem_append.mp mem with old | new
  · exact h.speech message old
  · rw [List.mem_singleton.mp new]
    exact speech

theorem isSpeech_of_mem_utterance {ctx : Context} {r : Request} {m : Message}
    (mem : m ∈ ctx.utterance ws r) : m.isSpeech = true := by
  cases r with
  | write => rw [List.mem_singleton.mp mem]; rfl
  | respond => rw [List.mem_singleton.mp mem]; rfl
  | report => rw [List.mem_singleton.mp mem]; rfl
  | clearScreen => rw [List.mem_singleton.mp mem]; rfl
  | _ => cases mem

theorem Belongs.answer {ctx : Context} (h : Belongs who ctx.owner ctx.transcript) (r : Request) :
    Belongs who (ctx.answer ws r).2.1.owner (ctx.answer ws r).2.1.transcript := by
  refine ⟨?_, ?_⟩
  · rw [Context.answer_owner, h.owner]
  · intro m mem
    rw [Context.answer_transcript, List.mem_append] at mem
    rcases mem with old | new
    · exact h.speech m old
    · unfold Mode.shown at new
      split at new
      · exact isSpeech_of_mem_utterance (List.mem_of_mem_filter new)
      · exact isSpeech_of_mem_utterance new

/-- The run does what a line of this owner does: it waits for what it starts. -/
def Attends (who : Option Instance) (P : α → Prop) (ws : Workspace) (run : Run α) : Prop :=
  run.Heeds (Pauses (who.map (·.name)))
    (fun ws value last => Stays (who.map (·.name)) ws last ∧ P value) ws

theorem Attends.after {run : Run α} (first : Stays (who.map (·.name)) ws ws')
    (h : Attends who P ws' run) : Attends who P ws run :=
  Run.Heeds.after h (fun _ _ rest => rest.after first)
    (fun _ _ rest => ⟨first.trans rest.1, rest.2⟩)

theorem Attends.bind {run : Run α} {f : α → Workspace → Run β} (h : Attends who P ws run)
    (rest : ∀ value last, P value → Attends who Q last (f value last)) :
    Attends who Q ws (run.bind f) :=
  Run.Heeds.bind h fun _ value last ended => (rest value last ended.2).after ended.1

/-- A wait for anything but a batch. -/
theorem Attends.waitFor {wait : Wait} {next : Workspace → Run α}
    (first : Stays (who.map (·.name)) ws ws') (other : ∀ id, wait ≠ .batch id)
    (rest : ∀ later, Attends who P later (next later)) :
    Attends who P ws (Run.waitFor wait ws' next) := by
  unfold Run.waitFor
  split
  · exact (rest ws').after first
  · exact .await (.rests first other) rest

/-- A batch with members is not complete when it has just started. -/
theorem isComplete_of_startBatch {names : List String} {started : Workspace.Started}
    (ok : ws.startBatch invoker names = .ok (started, ws')) (members : names ≠ []) :
    ws'.scheduler.isComplete started.batch = false := by
  obtain ⟨-, scripts, e, rfl, new, rfl, rfl⟩ := Workspace.startBatch_ok ok
  have some : scripts ≠ [] := fun none => members (by simp [none])
  have listed : e.scheduler.batches =
      ws.scheduler.batches ++ [⟨e.batch, scripts.length⟩] := by
    rw [new.batches, if_neg some, new.batch]
  simp [Scheduler.isComplete, listed]

/-- The wait for a batch that has just started. Only a batch of none is not waited for. -/
theorem Attends.waitForBatch {names : List String} {started : Workspace.Started}
    {next : Workspace → Run α} (ok : ws.startBatch (who.map (·.name)) names = .ok (started, ws'))
    (rest : ∀ later, Attends who P later (next later)) :
    Attends who P ws (Run.waitFor (.batch started.batch) ws' next) := by
  unfold Run.waitFor
  split
  · rename_i complete
    by_cases none : names = []
    · subst none
      exact (rest ws').after (.single (.startNone ok))
    · rw [Wait.isOver, isComplete_of_startBatch ok none] at complete
      cases complete
  · exact .await (.starts .refl ok) rest

/-- The lines that an evaluator evaluates wait for what they start. -/
def Attentive (evaluator : Evaluator) : Prop :=
  ∀ mode line owner transcript ws who, Belongs who owner transcript →
    Attends who (fun e : Ended => Belongs who e.owner e.transcript) ws
      (evaluator mode line owner transcript ws)

theorem perform_attends {nested : Evaluator} (attentive : Attentive nested) (action : Action α)
    (ctx : Context) (ws : Workspace) (mine : Belongs who ctx.owner ctx.transcript) :
    Attends who (fun result : α × Context => Belongs who result.2.owner result.2.transcript) ws
      (perform nested action ctx ws) := by
  induction action generalizing ctx ws with
  | done value => exact .done ⟨.refl, mine⟩
  | ask r next ih =>
    exact Attends.after (.single (.touch (.answer ctx r))) (ih _ _ _ (mine.answer r))
  | evaluate line quiet next ih =>
    exact Attends.bind (attentive _ _ _ _ ws who mine) fun e last kept => ih _ _ last kept
  | sleep duration next ih => exact Attends.waitFor .refl (by simp) fun later => ih ctx later mine
  | runScripts names next ih =>
    simp only [perform]
    split
    · exact ih _ ctx ws mine
    · rename_i started last ok
      rw [name_eq_of_fixed_eq mine.owner] at ok
      exact Attends.waitForBatch ok fun later => ih _ ctx later mine
  | readInput next ih =>
    refine Attends.waitFor (.single (.touch .ask)) (by simp) fun later => ?_
    exact Attends.after (.single (.touch (.read _))) (ih _ ctx _ mine)

/-- By induction on how deep lines may be nested. -/
theorem evaluate_attentive (depth : Nat) : Attentive (evaluate depth) := by
  induction depth with
  | zero =>
    intro mode line owner transcript ws who mine
    rw [evaluate]
    exact .endless
  | succ depth ih =>
    intro mode line owner transcript ws who mine
    rw [evaluate_succ]
    dsimp only
    split
    · exact .done ⟨.refl, mine⟩
    · exact .done ⟨.refl, mine.say rfl⟩
    · refine Attends.bind (perform_attends ih _ _ ws mine) fun result last kept => ?_
      refine .done ⟨.refl, ?_⟩
      unfold leave
      split
      · exact kept
      · exact kept.say rfl

theorem evaluate_attends (depth : Nat) (mode : Mode) (line : String) (owner : Option Instance)
    (ws : Workspace) :
    Attends owner (fun e : Ended => Belongs owner e.owner e.transcript) ws
      (evaluate depth mode line owner [] ws) :=
  evaluate_attentive depth mode line owner [] ws owner ⟨rfl, by simp⟩

/-- What a line of the host comes to: it waits for what it starts, and at its end publishes what it
has said and ends the request. -/
def Answers (ws : Workspace) (run : Run Evaluation) : Prop :=
  run.Heeds (Pauses none)
    (fun ws _ last => ∃ before said, Stays none ws before ∧ (∀ m ∈ said, m.isSpeech = true) ∧
      last = (before.publish said).endRequest) ws

theorem runRequest_answers (line : String) (ws : Workspace) :
    Answers ws.beginRequest (runRequest line ws) := by
  have evaluated := evaluate_attends (depthBound line 0) {} line none ws.beginRequest
  unfold runRequest runBare
  generalize evaluate (depthBound line 0) {} line none [] ws.beginRequest = run at evaluated ⊢
  have published : (run.bind fun e ws => .done e.evaluation (ws.publish e.transcript)).Heeds
      (Pauses none)
      (fun ws _ last => ∃ before said, Stays none ws before ∧ (∀ m ∈ said, m.isSpeech = true) ∧
        last = before.publish said) ws.beginRequest := by
    refine Run.Heeds.bind evaluated ?_
    rintro ws e last ⟨still, mine⟩
    exact .done ⟨last, e.transcript, still, mine.speech, rfl⟩
  refine Run.Heeds.bind published ?_
  rintro ws evaluation last ⟨before, said, still, speech, rfl⟩
  exact .done ⟨before, said, still, speech, rfl⟩

end

end Line

/-! ## Ticks -/

namespace Instance

/-- What a tick comes to: it waits for what it starts, and at its end says what its line has
said or nothing. -/
def Attends (i : Instance) (ws : Workspace) (run : Run Ticked) : Prop :=
  run.Heeds (Line.Pauses (some i.name))
    (fun ws ticked last => ∃ before said, Line.Stays (some i.name) ws before ∧
      (∀ m ∈ said, m.isSpeech = true) ∧ last = before.publish said ∧
      i.Concludes before ticked last) ws

theorem tick_attends (i : Instance) (ws : Workspace) : i.Attends ws (i.tick ws) := by
  unfold tick
  split
  · rename_i none
    exact .done ⟨ws, [], .refl, by simp, by simp, .exhausted none⟩
  · rename_i line _
    have evaluated := Line.evaluate_attends (Line.depthBound line i.extent) {} line (some i) ws
    generalize Line.evaluate (Line.depthBound line i.extent) {} line (some i) [] ws = run
      at evaluated ⊢
    refine Run.Heeds.bind evaluated ?_
    rintro ws e last ⟨still, mine⟩
    obtain ⟨j, owner, same⟩ := Option.map_eq_some_iff.mp mine.owner
    have decided : i.Concludes last (i.conclude e last).1 (i.conclude e last).2 :=
      .decided e j owner same
    -- Either all that the line has said is published, or nothing.
    by_cases current : last.isCurrent (e.owner.getD i) = true
    · refine .done ⟨last, e.transcript, still, mine.speech, ?_, decided⟩
      simp [conclude, current]
    · refine .done ⟨last, [], still, by simp, ?_, decided⟩
      simp [conclude, current]

end Instance

end LineScript
