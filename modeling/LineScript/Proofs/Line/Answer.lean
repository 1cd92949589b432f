import LineScript.Line.Context

/-!
# Answers to requests

What an answer does to the line it is given on, field by field. The reply, the owner and the
workspace that come out of it depend on little: `Context.sameAnswer` says that neither what was
said before nor whether it was shown has a part in it. The rest of the context is given outright by
`Context.answer_context`.
-/

namespace LineScript

/-- What is shown of the messages of a line. A quiet line shows no output. -/
def Mode.shown (mode : Mode) (said : List Message) : List Message :=
  if mode.quiet then said.filter (!·.isOutput) else said

@[simp] theorem Mode.shown_nil (mode : Mode) : mode.shown [] = [] := by
  simp [shown]

theorem Mode.shown_append (mode : Mode) (a b : List Message) :
    mode.shown (a ++ b) = mode.shown a ++ mode.shown b := by
  cases quiet : mode.quiet <;> simp [shown, quiet]

namespace Request

/-- The line that a script goes to after a request, if it was let go there. -/
def granted? : (r : Request) → r.Reply → Option Nat
  | .jump target, true => some target
  | _, _ => none

/-- The request reports an error. -/
def isReport : Request → Bool
  | .report _ => true
  | _ => false

/-- The responses after a request. -/
def respondTo (parts : List String) : Request → List String
  | .write text _ => Context.extendLast text parts
  | .respond text _ => parts ++ [text]
  | _ => parts

end Request

namespace Context

/-- What a request has its line say. -/
def utterance (ctx : Context) (ws : Workspace) : Request → List Message
  | .write text style => [.output text style]
  | .respond text style => [.output (text ++ "\n") style]
  | .report text => [.error (ctx.origin ++ text ++ "\n") (Style.colored ws.config.errorColor)]
  | .clearScreen => [.clear]
  | _ => []

theorem display_eq (ctx : Context) (text : String) (style : Style) :
    ctx.display text style =
      { ctx with transcript := ctx.transcript ++ ctx.mode.shown [.output text style] } := by
  cases quiet : ctx.mode.quiet <;>
    simp [display, Mode.shown, quiet, say, Message.isOutput]

/-- The two differ in the owner at most. -/
def SameButOwner (ctx ctx' : Context) : Prop :=
  ctx' = { ctx with owner := ctx'.owner }

theorem sameButOwner_assign (ctx : Context) (ws : Workspace) (name : String) (value : Value) :
    ctx.SameButOwner (ctx.assign ws name value).2.1 := by
  unfold assign
  split <;> split <;> rfl

theorem sameButOwner_assignGlobal (ctx : Context) (ws : Workspace) (name : String)
    (value : Value) : ctx.SameButOwner (ctx.assignGlobal ws name value).2.1 := by
  unfold assignGlobal
  split <;> rfl

theorem sameButOwner_update (ctx : Context) (ws : Workspace) (name : String) (value : Value) :
    ctx.SameButOwner (ctx.update ws name value).2.1 := by
  simp only [update]
  split
  · exact ctx.sameButOwner_assignGlobal ws name value
  · exact ctx.sameButOwner_assign ws name value

theorem sameButOwner_remove (ctx : Context) (ws : Workspace) (name : String) :
    ctx.SameButOwner (ctx.remove ws name).1 := by
  unfold remove
  split <;> rfl

theorem sameButOwner_setSettings (ctx : Context) (ws : Workspace) (settings : Settings) :
    ctx.SameButOwner (ctx.setSettings ws settings).1 := by
  unfold setSettings
  split <;> rfl

attribute [local simp] utterance Request.respondTo Request.isReport Request.granted?

/-- An answer changes the owner, and adds what the request says for itself. -/
theorem answer_context (ctx : Context) (ws : Workspace) (r : Request) :
    (ctx.answer ws r).2.1 =
      { line := ctx.line
        mode := ctx.mode
        owner := (ctx.answer ws r).2.1.owner
        transcript := ctx.transcript ++ ctx.mode.shown (ctx.utterance ws r)
        parts := r.respondTo ctx.parts
        failed := ctx.failed || r.isReport
        jump := (r.granted? (ctx.answer ws r).1).or ctx.jump } := by
  cases r with
  | write text style => simp [answer, write, display_eq]
  | respond text style => simp [answer, respond, display_eq]
  | report text => simp [answer, report, say, Mode.shown, Message.isOutput]
  | clearScreen => simp [answer, say, Mode.shown, Message.isOutput]
  | jump index =>
    simp only [answer, goTo]
    split
    · split <;> simp
    · simp
  | assign name value =>
    simpa [answer, SameButOwner] using ctx.sameButOwner_assign ws name value
  | assignGlobal name value =>
    simpa [answer, SameButOwner] using ctx.sameButOwner_assignGlobal ws name value
  | update name value =>
    simpa [answer, SameButOwner] using ctx.sameButOwner_update ws name value
  | remove name =>
    simpa [answer, SameButOwner] using ctx.sameButOwner_remove ws name
  | setTypingSpeed speed =>
    simpa [answer, SameButOwner] using ctx.sameButOwner_setSettings ws { typingSpeed := speed }
  | _ => simp [answer]

section

variable (ctx : Context) (ws : Workspace) (r : Request)

@[simp] theorem answer_line : (ctx.answer ws r).2.1.line = ctx.line := by
  rw [answer_context]

@[simp] theorem answer_mode : (ctx.answer ws r).2.1.mode = ctx.mode := by
  rw [answer_context]

@[simp] theorem answer_transcript : (ctx.answer ws r).2.1.transcript =
    ctx.transcript ++ ctx.mode.shown (ctx.utterance ws r) := by
  rw [answer_context]

@[simp] theorem answer_parts : (ctx.answer ws r).2.1.parts = r.respondTo ctx.parts := by
  rw [answer_context]

@[simp] theorem answer_failed : (ctx.answer ws r).2.1.failed = (ctx.failed || r.isReport) := by
  rw [answer_context]

@[simp] theorem answer_jump : (ctx.answer ws r).2.1.jump =
    (r.granted? (ctx.answer ws r).1).or ctx.jump := by
  rw [answer_context]

end

/-- The same line of the same owner, evaluated for the same reason. -/
structure Alike (ctx ctx' : Context) : Prop where
  line : ctx.line = ctx'.line
  owner : ctx.owner = ctx'.owner
  pseudo : ctx.mode.pseudo = ctx'.mode.pseudo

/-- The replies are the same, and so are the owners and the workspaces after them. -/
structure SameAnswer {ρ : Type} (a b : ρ × Context × Workspace) : Prop where
  reply : a.1 = b.1
  owner : a.2.1.owner = b.2.1.owner
  workspace : a.2.2 = b.2.2

section Alike

variable {ctx ctx' : Context} (alike : ctx.Alike ctx') (ws : Workspace)
include alike

theorem sameAnswer_assign (name : String) (value : Value) :
    SameAnswer (ctx.assign ws name value) (ctx'.assign ws name value) := by
  simp only [assign, alike.owner]
  split
  · split
    · exact ⟨rfl, rfl, rfl⟩
    · exact ⟨rfl, alike.owner, rfl⟩
  · split <;> exact ⟨rfl, alike.owner, rfl⟩

theorem sameAnswer_assignGlobal (name : String) (value : Value) :
    SameAnswer (ctx.assignGlobal ws name value) (ctx'.assignGlobal ws name value) := by
  simp only [assignGlobal]
  split <;> exact ⟨rfl, alike.owner, rfl⟩

theorem sameAnswer_update (name : String) (value : Value) :
    SameAnswer (ctx.update ws name value) (ctx'.update ws name value) := by
  have locals_eq : ctx.locals = ctx'.locals := by
    rw [locals, locals, alike.owner]
  simp only [update, locals_eq]
  by_cases isGlobal : (!(ctx'.locals.map (·.contains name)).getD false &&
      ws.globals.contains name) = true
  · rw [if_pos isGlobal, if_pos isGlobal]
    exact sameAnswer_assignGlobal alike ws name value
  · rw [if_neg isGlobal, if_neg isGlobal]
    exact sameAnswer_assign alike ws name value

/-- Neither what was said before a request nor whether it was shown has a part in its answer. -/
theorem sameAnswer (r : Request) : SameAnswer (ctx.answer ws r) (ctx'.answer ws r) := by
  have owners := alike.owner
  cases r with
  | write text style => exact ⟨rfl, by simp [answer, write, display_eq, owners], rfl⟩
  | respond text style => exact ⟨rfl, by simp [answer, respond, display_eq, owners], rfl⟩
  | isPseudo => exact ⟨alike.pseudo, owners, rfl⟩
  | source =>
    refine ⟨?_, owners, rfl⟩
    show ctx.source = ctx'.source
    rw [source, source, owners, alike.line]
  | assign name value => exact sameAnswer_assign alike ws name value
  | assignGlobal name value => exact sameAnswer_assignGlobal alike ws name value
  | update name value => exact sameAnswer_update alike ws name value
  | jump index =>
    simp only [answer, goTo, owners]
    split
    · split
      · exact ⟨rfl, rfl, rfl⟩
      · exact ⟨rfl, owners, rfl⟩
    · exact ⟨rfl, owners, rfl⟩
  | _ =>
    -- The others are answered from the owner and the workspace.
    obtain ⟨line, mode, owner⟩ := ctx
    obtain ⟨line', mode', owner'⟩ := ctx'
    obtain rfl : owner = owner' := owners
    cases owner <;> exact ⟨rfl, rfl, rfl⟩

theorem utterance_eq (r : Request) : ctx.utterance ws r = ctx'.utterance ws r := by
  cases r <;> simp [origin, alike.owner]

end Alike

end Context

end LineScript
