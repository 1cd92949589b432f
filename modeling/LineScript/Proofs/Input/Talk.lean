import LineScript.Proofs.Input.Signal
import LineScript.Proofs.Line.Account
import LineScript.Proofs.Line.Attendance

/-!
# What a line has to do with input

Between two waits a line may start reads, but only a read that is answered at once does not make it
wait. So a line that waits for input has just started the read that it waits for, and no other read
of it is open. When it goes on, the read has been answered, and that comes first.

* `Line.Talks` is what a line does between two waits, and `Line.Comes` how it comes to a wait, with
  notes of it all.
* `Run.Meets` says what a run does up to each wait, if it goes on only when the wait is over.
* `runRequest_talks` and `tick_talks` say this of lines of the host and of ticks, whatever the
  commands are.
-/

namespace LineScript

/-! ## Runs that wait in earnest -/

namespace Run

variable {α β : Type} {E : Workspace → Wait → Workspace → Prop}
  {P : Workspace → α → Workspace → Prop} {Q : Workspace → β → Workspace → Prop}
  {ws ws' : Workspace}

/-- From this workspace the run does what `E` has for its next wait, or with its end it does `P`. It
goes on in this way once the wait is over; if it has waited for input, it reads its line first. -/
inductive Meets (E : Workspace → Wait → Workspace → Prop) (P : Workspace → α → Workspace → Prop) :
    Workspace → Run α → Prop where
  | done {ws last : Workspace} {value : α} (final : P ws value last) :
      Meets E P ws (.done value last)
  | await {ws last : Workspace} {wait : Wait} {next : Workspace → Run α} (here : E ws wait last)
      (rest : ∀ later, wait.isOver later = true → Meets E P (wait.resume later) (next later)) :
      Meets E P ws (.await wait last next)
  | endless {ws : Workspace} : Meets E P ws .endless

/-- Something may come before. -/
theorem Meets.after {run : Run α} (h : run.Meets E P ws')
    (step : ∀ wait last, E ws' wait last → E ws wait last)
    (final : ∀ value last, P ws' value last → P ws value last) : run.Meets E P ws := by
  cases h with
  | done ended => exact .done (final _ _ ended)
  | await here rest => exact .await (step _ _ here) rest
  | endless => exact .endless

theorem Meets.bind {run : Run α} {f : α → Workspace → Run β} (h : run.Meets E P ws)
    (rest : ∀ ws value last, P ws value last → (f value last).Meets E Q ws) :
    (run.bind f).Meets E Q ws := by
  induction h with
  | done ended => exact rest _ _ _ ended
  | await here _ ih => exact .await here ih
  | endless => exact .endless

end Run

namespace Line

open Workspace (Apart Dealt)

variable {ws ws' mid last : Workspace} {notes notes' : List Note} {said : List Message}

/-! ## Between two waits -/

/-- What a line does between two waits: a read that it starts is answered at once. -/
inductive Talks (ws : Workspace) : List Note → Workspace → Prop where
  | nil : Talks ws [] ws
  | apart {notes : List Note} {mid last : Workspace} {said : List Message}
      (talks : Talks ws notes mid) (apart : mid.Apart said last) :
      Talks ws (notes ++ [⟨none, said⟩]) last
  | atOnce {notes : List Note} {mid : Workspace} {line : String} (talks : Talks ws notes mid)
      (first : mid.askInput.1.isFirst mid.requests = true)
      (head : mid.askInput.1.inputs.head? = some line) :
      Talks ws (notes ++ [⟨some (.asks mid.requests), [.input true]⟩] ++
        [⟨some (.gets mid.requests line), [.input (mid.busy == 0)]⟩])
        (mid.askInput.1.readInput mid.requests).2

/-- How a line comes to a wait: if it waits for input, it has just started the read. -/
inductive Comes (ws : Workspace) : List Note → Wait → Workspace → Prop where
  | other {notes : List Note} {wait : Wait} {last : Workspace} (talks : Talks ws notes last)
      (other : wait.isForInput = false) : Comes ws notes wait last
  | input {notes : List Note} {before : Workspace} (talks : Talks ws notes before) :
      Comes ws (notes ++ [⟨some (.asks before.requests), [.input true]⟩]) (.input before.requests)
        before.askInput.1

theorem Talks.single (apart : ws.Apart said last) : Talks ws [⟨none, said⟩] last :=
  .apart .nil apart

theorem Talks.trans (first : Talks ws notes mid) (second : Talks mid notes' last) :
    Talks ws (notes ++ notes') last := by
  induction second with
  | nil => rwa [List.append_nil]
  | apart _ apart ih =>
    rw [← List.append_assoc]
    exact ih.apart apart
  | atOnce _ isFirst head ih =>
    rw [← List.append_assoc, ← List.append_assoc]
    exact ih.atOnce isFirst head

theorem Talks.dealt (talks : Talks ws notes last) : ws.Dealt notes last := by
  induction talks with
  | nil => exact .nil
  | apart _ apart ih => exact ih.snoc (.apart apart)
  | atOnce _ isFirst head ih => exact (ih.snoc .asks).snoc (.gets isFirst head)

theorem Comes.dealt {wait : Wait} (comes : Comes ws notes wait last) : ws.Dealt notes last := by
  cases comes with
  | other talks other => exact talks.dealt
  | input talks => exact talks.dealt.snoc .asks

theorem Comes.after {wait : Wait} (first : Talks ws notes mid)
    (comes : Comes mid notes' wait last) : Comes ws (notes ++ notes') wait last := by
  cases comes with
  | other talks other => exact .other (first.trans talks) other
  | input talks =>
    rw [← List.append_assoc]
    exact .input (first.trans talks)

/-- An answer to a request has nothing to do with input. -/
theorem apart_answer (ctx : Context) (ws : Workspace) (r : Request) :
    ws.Apart [] (ctx.answer ws r).2.2 := by
  obtain ⟨globals, terminal, device, entropy, eq⟩ := ctx.answer_workspace ws r
  rw [eq]
  exact .of_eq rfl rfl rfl rfl rfl

/-! ## Lines -/

section

variable {α β : Type} {who : Option Instance} {P : α → Prop} {Q : β → Prop}

/-- The run reads as a line does, and `P` holds of its end. -/
def Reads (P : α → Prop) (ws : Workspace) (run : Run α) : Prop :=
  run.Meets (fun ws wait last => ∃ notes, Comes ws notes wait last)
    (fun ws value last => (∃ notes, Talks ws notes last) ∧ P value) ws

theorem Reads.after {run : Run α} (first : Talks ws notes ws') (h : Reads P ws' run) :
    Reads P ws run := by
  refine Run.Meets.after h ?_ ?_
  · rintro wait last ⟨notes', comes⟩
    exact ⟨_, comes.after first⟩
  · rintro value last ⟨⟨notes', talks⟩, ends⟩
    exact ⟨⟨_, first.trans talks⟩, ends⟩

theorem Reads.bind {run : Run α} {f : α → Workspace → Run β} (h : Reads P ws run)
    (rest : ∀ value last, P value → Reads Q last (f value last)) : Reads Q ws (run.bind f) := by
  refine Run.Meets.bind h ?_
  rintro ws value last ⟨⟨notes, talks⟩, ends⟩
  exact (rest value last ends).after talks

/-- A wait for anything but input. -/
theorem Reads.waitFor {wait : Wait} {next : Workspace → Run α} (first : Talks ws notes ws')
    (other : wait.isForInput = false) (rest : ∀ later, Reads P later (next later)) :
    Reads P ws (Run.waitFor wait ws' next) := by
  have same : ∀ later, wait.resume later = later := by
    intro later
    cases wait with
    | input ticket => cases other
    | _ => rfl
  unfold Run.waitFor
  split
  · exact (rest ws').after first
  · refine .await ⟨_, .other first other⟩ fun later _ => ?_
    rw [same]
    exact rest later

/-- A read. If there is a line for it already, nobody waits. -/
theorem Reads.waitForInput {next : Option String → Workspace → Run α}
    (rest : ∀ line later, Reads P later (next line later)) :
    Reads P ws (Run.waitFor (.input ws.requests) ws.askInput.1 fun later =>
      next (later.readInput ws.requests).1 (later.readInput ws.requests).2) := by
  unfold Run.waitFor
  split
  · rename_i can
    obtain ⟨first, more⟩ := Bool.and_eq_true_iff.mp can
    obtain ⟨line, head⟩ : ∃ line, ws.askInput.1.inputs.head? = some line := by
      cases inputs : ws.askInput.1.inputs with
      | nil => simp [inputs] at more
      | cons line others => exact ⟨line, rfl⟩
    exact (rest _ _).after (.atOnce .nil first head)
  · exact .await ⟨_, .input .nil⟩ fun later _ => rest _ _

/-- The lines that an evaluator evaluates read as lines do. -/
def Conversing (evaluator : Evaluator) : Prop :=
  ∀ mode line owner transcript ws who, Belongs who owner transcript →
    Reads (fun e : Ended => Belongs who e.owner e.transcript) ws
      (evaluator mode line owner transcript ws)

theorem perform_reads {nested : Evaluator} (conversing : Conversing nested) (action : Action α)
    (ctx : Context) (ws : Workspace) (mine : Belongs who ctx.owner ctx.transcript) :
    Reads (fun result : α × Context => Belongs who result.2.owner result.2.transcript) ws
      (perform nested action ctx ws) := by
  induction action generalizing ctx ws with
  | done value => exact .done ⟨⟨_, .nil⟩, mine⟩
  | ask r next ih =>
    exact Reads.after (.single (apart_answer ctx ws r)) (ih _ _ _ (mine.answer r))
  | evaluate line quiet next ih =>
    exact Reads.bind (conversing _ _ _ _ ws who mine) fun e last kept => ih _ _ last kept
  | sleep duration next ih => exact Reads.waitFor .nil rfl fun later => ih ctx later mine
  | runScripts names next ih =>
    simp only [perform]
    split
    · exact ih _ ctx ws mine
    · rename_i started last ok
      exact Reads.waitFor (.single (.startBatch ok)) rfl fun later => ih _ ctx later mine
  | readInput next ih =>
    exact Reads.waitForInput fun line later => ih line ctx later mine

/-- By induction on how deep lines may be nested. -/
theorem evaluate_conversing (depth : Nat) : Conversing (evaluate depth) := by
  induction depth with
  | zero =>
    intro mode line owner transcript ws who mine
    rw [evaluate]
    exact .endless
  | succ depth ih =>
    intro mode line owner transcript ws who mine
    rw [evaluate_succ]
    dsimp only
    split
    · exact .done ⟨⟨_, .nil⟩, mine⟩
    · exact .done ⟨⟨_, .nil⟩, mine.say rfl⟩
    · refine Reads.bind (perform_reads ih _ _ ws mine) fun result last kept => ?_
      refine .done ⟨⟨_, .nil⟩, ?_⟩
      unfold leave
      split
      · exact kept
      · exact kept.say rfl

/-- What is left of a line of the host: at its end it publishes what it has said and ends the
request. -/
def Talk (ws : Workspace) (run : Run Evaluation) : Prop :=
  run.Meets (fun ws wait last => ∃ notes, Comes ws notes wait last)
    (fun ws _ last => ∃ notes before, Talks ws notes before ∧ last = before.endRequest) ws

theorem silent_of_speech {transcript : List Message}
    (speech : ∀ m ∈ transcript, m.isSpeech = true) : ∀ m ∈ transcript, m.toggle? = none := by
  intro m mem
  have spoken := speech m mem
  cases m with
  | input enabled => cases spoken
  | _ => rfl

theorem runRequest_talks (line : String) (ws : Workspace) :
    Talk ws.beginRequest (runRequest line ws) := by
  have evaluated := evaluate_conversing (depthBound line 0) {} line none [] ws.beginRequest none
    ⟨rfl, by simp⟩
  unfold runRequest runBare
  generalize evaluate (depthBound line 0) {} line none [] ws.beginRequest = run at evaluated ⊢
  have published : Reads (fun _ => True) ws.beginRequest
      (run.bind fun e ws => .done e.evaluation (ws.publish e.transcript)) := by
    refine Reads.bind evaluated fun e last mine => ?_
    have said := Apart.publish last (silent_of_speech mine.speech)
    exact .done ⟨⟨_, .single said⟩, trivial⟩
  refine Run.Meets.bind published ?_
  rintro ws evaluation last ⟨⟨notes, talks⟩, -⟩
  exact .done ⟨notes, last, talks, rfl⟩

end

end Line

/-- What is left of a tick. -/
def Instance.Talk (ws : Workspace) (run : Run Ticked) : Prop :=
  run.Meets (fun ws wait last => ∃ notes, Line.Comes ws notes wait last)
    (fun ws _ last => ∃ notes, Line.Talks ws notes last) ws

theorem Instance.tick_talks (i : Instance) (ws : Workspace) : Talk ws (i.tick ws) := by
  unfold tick
  split
  · exact .done ⟨_, .nil⟩
  · rename_i line _
    have evaluated := Line.evaluate_conversing (Line.depthBound line i.extent) {} line (some i) []
      ws (some i) ⟨rfl, by simp⟩
    generalize Line.evaluate (Line.depthBound line i.extent) {} line (some i) [] ws = run
      at evaluated ⊢
    refine Run.Meets.bind evaluated ?_
    rintro ws e last ⟨⟨notes, talks⟩, mine⟩
    refine .done ?_
    -- Either all that the line has said is published, or nothing.
    unfold conclude
    dsimp only
    split
    · exact ⟨_, talks.apart (.publish last (Line.silent_of_speech mine.speech))⟩
    · exact ⟨notes, talks⟩

end LineScript
