import LineScript.Proofs.Line.Answer
import LineScript.Proofs.Line.Reading

/-!
# Quiet lines

A quiet line does what it would do visibly: it comes to the same end by the same steps, and what it
says is the same without the output. Whether a line is quiet is handed on to the lines nested in it,
and no command can find out; this holds of any commands, not only of the builtin ones.

The two evaluations of a line are followed side by side. Between two waits they leave the same
workspace behind, they wait for the same, and they are given the same workspace when they go on.
`Run.Agrees` says this of two runs, `Line.Twin` relates the contexts of the two on the way.
-/

namespace LineScript

/-! ## Two runs side by side -/

namespace Run

variable {α β γ δ : Type}

/-- The runs do the same to the workspace and wait for the same, whatever workspaces they are given
after their waits, and they end with related values. -/
inductive Agrees (R : α → β → Prop) : Run α → Run β → Prop where
  | done {a : α} {b : β} {ws : Workspace} (related : R a b) : Agrees R (.done a ws) (.done b ws)
  | await {wait : Wait} {ws : Workspace} {next : Workspace → Run α} {next' : Workspace → Run β}
      (rest : ∀ later, Agrees R (next later) (next' later)) :
      Agrees R (.await wait ws next) (.await wait ws next')
  | endless : Agrees R .endless .endless

variable {R : α → β → Prop} {S : γ → δ → Prop}

theorem Agrees.bind {run : Run α} {run' : Run β} {f : α → Workspace → Run γ}
    {f' : β → Workspace → Run δ} (h : run.Agrees R run')
    (rest : ∀ a b ws, R a b → (f a ws).Agrees S (f' b ws)) :
    (run.bind f).Agrees S (run'.bind f') := by
  induction h with
  | done related => exact rest _ _ _ related
  | await _ ih => exact .await ih
  | endless => exact .endless

theorem Agrees.waitFor (wait : Wait) (ws : Workspace) {next : Workspace → Run α}
    {next' : Workspace → Run β} (rest : ∀ ws, (next ws).Agrees R (next' ws)) :
    (Run.waitFor wait ws next).Agrees R (Run.waitFor wait ws next') := by
  unfold Run.waitFor
  split
  · exact rest ws
  · exact .await rest

theorem Agrees.mono {T : α → β → Prop} {run : Run α} {run' : Run β} (h : run.Agrees R run')
    (weaker : ∀ a b, R a b → T a b) : run.Agrees T run' := by
  induction h with
  | done related => exact .done (weaker _ _ related)
  | await _ ih => exact .await ih
  | endless => exact .endless

end Run

namespace Line

/-! ## What is said -/

/-- Both have said the same, and each has shown what its mode lets it show. -/
def SaysAlike (mode mode' : Mode) (before before' after after' : List Message) : Prop :=
  ∃ said, after = before ++ mode.shown said ∧ after' = before' ++ mode'.shown said

section

variable {mode mode' : Mode} {a a' b b' c c' : List Message}

theorem SaysAlike.refl : SaysAlike mode mode' a a' a a' :=
  ⟨[], by simp, by simp⟩

theorem SaysAlike.trans (first : SaysAlike mode mode' a a' b b')
    (second : SaysAlike mode mode' b b' c c') : SaysAlike mode mode' a a' c c' := by
  obtain ⟨said, rfl, rfl⟩ := first
  obtain ⟨more, rfl, rfl⟩ := second
  exact ⟨said ++ more, by simp [Mode.shown_append], by simp [Mode.shown_append]⟩

/-- The mode in which a line is evaluated for another one. -/
def nestedMode (mode : Mode) (quiet : Bool) : Mode :=
  { pseudo := true, quiet := quiet || mode.quiet }

/-- What a quiet line in a line shows is shown either way, so it is no more than a quiet line in a
quiet line shows. -/
theorem shown_nestedMode (mode : Mode) (quiet : Bool) (said : List Message) :
    (nestedMode mode quiet).shown said = mode.shown (Mode.shown { quiet } said) := by
  cases quiet <;> cases hidden : mode.quiet <;>
    simp [nestedMode, Mode.shown, hidden, List.filter_filter]

/-- What lines nested in both say is said by both. -/
theorem SaysAlike.of_nested {quiet : Bool}
    (h : SaysAlike (nestedMode mode quiet) (nestedMode mode' quiet) a a' b b') :
    SaysAlike mode mode' a a' b b' := by
  obtain ⟨said, rfl, rfl⟩ := h
  exact ⟨Mode.shown { quiet } said, by rw [shown_nestedMode], by rw [shown_nestedMode]⟩

end

/-! ## Contexts side by side -/

/-- The contexts of one line in two modes, after what was said before. -/
structure Twin (mode mode' : Mode) (before before' : List Message) (ctx ctx' : Context) : Prop where
  alike : ctx.Alike ctx'
  parts : ctx.parts = ctx'.parts
  failed : ctx.failed = ctx'.failed
  jump : ctx.jump = ctx'.jump
  mode_eq : ctx.mode = mode
  mode_eq' : ctx'.mode = mode'
  said : SaysAlike mode mode' before before' ctx.transcript ctx'.transcript

/-- What one line leaves behind in two modes. -/
structure SameEnd (mode mode' : Mode) (before before' : List Message) (e e' : Ended) : Prop where
  evaluation : e.evaluation = e'.evaluation
  owner : e.owner = e'.owner
  said : SaysAlike mode mode' before before' e.transcript e'.transcript

section

variable {mode mode' : Mode} {before before' : List Message} {ctx ctx' : Context}

theorem Twin.start (line : String) (owner : Option Instance) (same : mode.pseudo = mode'.pseudo) :
    Twin mode mode' before before' { line, mode, owner, transcript := before }
      { line, mode := mode', owner, transcript := before' } :=
  ⟨⟨rfl, rfl, same⟩, rfl, rfl, rfl, rfl, rfl, .refl⟩

theorem Twin.answer (h : Twin mode mode' before before' ctx ctx') (ws : Workspace) (r : Request) :
    Twin mode mode' before before' (ctx.answer ws r).2.1 (ctx'.answer ws r).2.1 where
  alike := by
    refine ⟨?_, (Context.sameAnswer h.alike ws r).owner, ?_⟩
    · rw [Context.answer_line, Context.answer_line, h.alike.line]
    · rw [Context.answer_mode, Context.answer_mode, h.alike.pseudo]
  parts := by rw [Context.answer_parts, Context.answer_parts, h.parts]
  failed := by rw [Context.answer_failed, Context.answer_failed, h.failed]
  jump := by
    rw [Context.answer_jump, Context.answer_jump, (Context.sameAnswer h.alike ws r).reply, h.jump]
  mode_eq := by rw [Context.answer_mode, h.mode_eq]
  mode_eq' := by rw [Context.answer_mode, h.mode_eq']
  said := by
    refine h.said.trans ⟨ctx.utterance ws r, ?_, ?_⟩
    · rw [Context.answer_transcript, h.mode_eq]
    · rw [Context.answer_transcript, h.mode_eq', Context.utterance_eq h.alike]

theorem Twin.afterNested (h : Twin mode mode' before before' ctx ctx') {quiet : Bool} {e e' : Ended}
    (ends : SameEnd (nestedMode mode quiet) (nestedMode mode' quiet) ctx.transcript ctx'.transcript
      e e') :
    Twin mode mode' before before' (ctx.afterNested e.evaluation e.owner e.transcript)
      (ctx'.afterNested e'.evaluation e'.owner e'.transcript) where
  alike := ⟨h.alike.line, ends.owner, h.alike.pseudo⟩
  parts := h.parts
  failed := by simp only [Context.afterNested, h.failed, ends.evaluation]
  jump := by simp only [Context.afterNested, h.jump, ends.evaluation]
  mode_eq := h.mode_eq
  mode_eq' := h.mode_eq'
  said := h.said.trans ends.said.of_nested

/-- An error is shown in any mode. -/
theorem Twin.report (h : Twin mode mode' before before' ctx ctx') (color text : String) :
    Twin mode mode' before before' (ctx.report color text) (ctx'.report color text) where
  alike := ⟨h.alike.line, h.alike.owner, h.alike.pseudo⟩
  parts := h.parts
  failed := rfl
  jump := h.jump
  mode_eq := h.mode_eq
  mode_eq' := h.mode_eq'
  said := by
    refine h.said.trans ⟨[.error (ctx.origin ++ text ++ "\n") (Style.colored color)], ?_, ?_⟩
    · simp [Context.report, Context.say, Mode.shown, Message.isOutput]
    · have origin : ctx'.origin = ctx.origin := by
        rw [Context.origin, Context.origin, h.alike.owner]
      simp [Context.report, Context.say, Mode.shown, Message.isOutput, origin]

theorem Twin.ended (h : Twin mode mode' before before' ctx ctx') :
    SameEnd mode mode' before before' (ended ctx) (Line.ended ctx') where
  evaluation := by
    simp only [Line.ended, Context.evaluation, h.failed, h.jump, h.parts]
  owner := h.alike.owner
  said := h.said

end

/-! ## Evaluations side by side -/

/-- Lines come to the same end in modes that differ in what is shown. -/
def Discreet (evaluator : Evaluator) : Prop :=
  ∀ (mode mode' : Mode) (line : String) (owner : Option Instance)
    (before before' : List Message) (ws : Workspace), mode.pseudo = mode'.pseudo →
    (evaluator mode line owner before ws).Agrees (SameEnd mode mode' before before')
      (evaluator mode' line owner before' ws)

/-- An action comes to the same end if the lines do that it evaluates. -/
theorem perform_agrees {α : Type} {nested : Evaluator} (discreet : Discreet nested)
    {mode mode' : Mode} {before before' : List Message} (action : Action α) {ctx ctx' : Context}
    (twin : Twin mode mode' before before' ctx ctx') (ws : Workspace) :
    (perform nested action ctx ws).Agrees
      (fun a b => a.1 = b.1 ∧ Twin mode mode' before before' a.2 b.2)
      (perform nested action ctx' ws) := by
  induction action generalizing ctx ctx' ws with
  | done value => exact .done ⟨rfl, twin⟩
  | ask r next ih =>
    have same := Context.sameAnswer twin.alike ws r
    simp only [perform]
    rw [same.reply, same.workspace]
    exact ih _ (twin.answer ws r) _
  | evaluate line quiet next ih =>
    have nestedAgrees := discreet (nestedMode mode quiet) (nestedMode mode' quiet) line ctx.owner
      ctx.transcript ctx'.transcript ws rfl
    simp only [perform]
    rw [twin.mode_eq, twin.mode_eq', ← twin.alike.owner]
    -- The command is told the same of both lines, so that it goes on in the same way.
    refine nestedAgrees.bind fun e e' ws ends => ?_
    have after := twin.afterNested ends
    rw [ends.evaluation] at after ⊢
    exact ih _ after ws
  | sleep duration next ih => exact .waitFor _ ws fun ws => ih twin ws
  | runScripts names next ih =>
    simp only [perform, twin.alike.owner]
    split
    · exact ih _ twin ws
    · exact .waitFor _ _ fun ws => ih _ twin ws
  | readInput next ih => exact .waitFor _ _ fun ws => ih _ twin _

theorem evaluate_discreet (depth : Nat) : Discreet (evaluate depth) := by
  induction depth with
  | zero =>
    intro mode mode' line owner before before' ws same
    exact .endless
  | succ depth ih =>
    intro mode mode' line owner before before' ws same
    have twin : Twin mode mode' before before' _ _ := Twin.start line owner same
    rw [evaluate_succ, evaluate_succ]
    cases read ws.registry line with
    | idle => exact .done ⟨rfl, rfl, .refl⟩
    | unknown name => exact .done (twin.report _ _).ended
    | runs command args =>
      refine (perform_agrees ih (command.run args).run twin ws).bind ?_
      rintro ⟨result, ctx⟩ ⟨_, ctx'⟩ ws ⟨rfl, twin⟩
      cases result with
      | ok _ => exact .done twin.ended
      | error fault => exact .done (twin.report _ _).ended

/-- A line that is evaluated quietly comes to the same end as one that is evaluated visibly, by the
same steps from the same workspaces, and says the same without the output. -/
theorem quiet_agrees_with_visible (depth : Nat) (pseudo : Bool) (line : String)
    (owner : Option Instance) (transcript : List Message) (ws : Workspace) :
    (evaluate depth { pseudo, quiet := true } line owner transcript ws).Agrees
      (fun quiet visible =>
        quiet.evaluation = visible.evaluation ∧ quiet.owner = visible.owner ∧
          ∃ said, visible.transcript = transcript ++ said ∧
            quiet.transcript = transcript ++ said.filter (!·.isOutput))
      (evaluate depth { pseudo, quiet := false } line owner transcript ws) := by
  have agrees := evaluate_discreet depth { pseudo, quiet := true } { pseudo, quiet := false } line
    owner transcript transcript ws rfl
  refine agrees.mono fun quiet visible ends => ⟨ends.evaluation, ends.owner, ?_⟩
  obtain ⟨said, hidden, shown⟩ := ends.said
  exact ⟨said, by simpa [Mode.shown] using shown, by simpa [Mode.shown] using hidden⟩

end Line

end LineScript
