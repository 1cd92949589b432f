import LineScript.Proofs.Command.Draw
import LineScript.Proofs.Line.Carry
import LineScript.Rehearsal

/-!
# Rehearsals and lines

An action has two meanings: `Line.perform` carries it out on a line in a workspace, and
`Rehearsal.perform` on a stage. `Rehearsal.Stands` says that a stage holds what the line sees. Then
both give the same replies to whatever a builtin command asks for, and stay in step
(`Stands.answer`), so a command that does not wait and evaluates no line comes to the same end on
both. Random numbers are apart: the two draw from sources of their own, and a command that draws one
says the same on both but for that number (`Stands.rolls`). Of a line that a command evaluates the
stage takes down what the line is and whether it is to be quiet.
-/

namespace LineScript

namespace Rehearsal

/-- The stage holds what a line in this context sees. -/
structure Stands (r : Rehearsal) (ctx : Context) (ws : Workspace) : Prop where
  inst : r.inst = ctx.owner.map (·.name)
  source : ∀ i, ctx.owner = some i → r.source = i.source
  counter : ∀ i, ctx.owner = some i → r.counter = i.counter
  locals : ∀ i, ctx.owner = some i → r.locals = i.locals
  globals : r.globals = ws.globals
  typingSpeed : r.typingSpeed = (ctx.settings ws).typingSpeed
  registry : r.registry = ws.registry
  device : r.device = ws.device
  jump : r.jump = ctx.jump

/-- From one moment to another the same has been said on the stage and on the line, and nothing was
taken down. -/
structure Keeps (r : Rehearsal) (ctx : Context) (ws : Workspace) (r' : Rehearsal) (ctx' : Context)
    (ws' : Workspace) : Prop where
  stands : r'.Stands ctx' ws'
  mode : ctx'.mode = ctx.mode
  said : ∃ said, r'.output = r.output ++ said ∧ ctx'.transcript = ctx.transcript ++ said
  evaluated : r'.evaluated = r.evaluated

section

variable {r r' r'' : Rehearsal} {ctx ctx' ctx'' : Context} {ws ws' ws'' : Workspace}

theorem Stands.keeps (stands : r.Stands ctx ws) : r.Keeps ctx ws r ctx ws :=
  ⟨stands, rfl, ⟨[], by simp, by simp⟩, rfl⟩

theorem Keeps.trans (first : r.Keeps ctx ws r' ctx' ws')
    (second : r'.Keeps ctx' ws' r'' ctx'' ws'') : r.Keeps ctx ws r'' ctx'' ws'' where
  stands := second.stands
  mode := second.mode.trans first.mode
  said := by
    obtain ⟨said, output, transcript⟩ := first.said
    obtain ⟨more, output', transcript'⟩ := second.said
    refine ⟨said ++ more, ?_, ?_⟩
    · rw [output', output, List.append_assoc]
    · rw [transcript', transcript, List.append_assoc]
  evaluated := second.evaluated.trans first.evaluated

theorem Stands.ownScope_eq (stands : r.Stands ctx ws) : r.ownScope = ctx.locals := by
  unfold ownScope Context.locals
  rw [stands.inst]
  cases owner : ctx.owner with
  | none => rfl
  | some i => simp [stands.locals i owner]

/-- A reply, and what is there after it, on the stage and on the line. -/
structure Agrees {ρ : Type} (r : Rehearsal) (ctx : Context) (ws : Workspace) (here : ρ × Rehearsal)
    (there : ρ × Context × Workspace) : Prop where
  reply : here.1 = there.1
  keeps : r.Keeps ctx ws here.2 there.2.1 there.2.2

/-- An answer that changes nothing. -/
theorem Stands.agrees_of_eq {ρ : Type} (stands : r.Stands ctx ws) {a b : ρ} (same : a = b) :
    r.Agrees ctx ws (a, r) (b, ctx, ws) :=
  ⟨same, stands.keeps⟩

theorem Stands.assignGlobal (stands : r.Stands ctx ws) (name : String) (value : Value) :
    r.Agrees ctx ws (r.assignGlobal name value) (ctx.assignGlobal ws name value) := by
  unfold Rehearsal.assignGlobal Context.assignGlobal
  rw [stands.globals]
  cases ws.globals.assign name value with
  | error e => exact stands.agrees_of_eq rfl
  | ok globals =>
    exact ⟨rfl, { stands with globals := rfl }, rfl, ⟨[], by simp, by simp⟩, rfl⟩

/-- The variables and the settings of the owner may change on both sides. -/
theorem Stands.own {i j : Instance} {locals : Scope} {speed : Option Binary64}
    (stands : r.Stands ctx ws) (owner : ctx.owner = some i) (fixed : j.fixed = i.fixed)
    (sameLocals : locals = j.locals) (sameSpeed : speed = j.settings.typingSpeed) :
    { r with locals, typingSpeed := speed }.Stands { ctx with owner := some j } ws where
  inst := by
    show r.inst = some j.name
    rw [stands.inst, owner]
    exact congrArg some (congrArg (·.name) fixed).symm
  source k same := by
    cases same
    exact (stands.source i owner).trans (congrArg (·.source) fixed).symm
  counter k same := by
    cases same
    exact (stands.counter i owner).trans (congrArg (·.counter) fixed).symm
  locals k same := by
    cases same
    exact sameLocals
  globals := stands.globals
  typingSpeed := sameSpeed
  registry := stands.registry
  device := stands.device
  jump := stands.jump

theorem Stands.settings_eq {i : Instance} (stands : r.Stands ctx ws) (owner : ctx.owner = some i) :
    r.typingSpeed = i.settings.typingSpeed := by
  rw [stands.typingSpeed, Context.settings, owner]

theorem assign_of_owner {i : Instance} (owner : ctx.owner = some i) (name : String)
    (value : Value) :
    ctx.assign ws name value =
      match i.locals.assign name value with
      | .ok locals => (.ok (), { ctx with owner := some { i with locals } }, ws)
      | .error e => (.error e, ctx, ws) := by
  unfold Context.assign
  split
  · rename_i j same
    cases owner.symm.trans same
    rfl
  · rename_i none
    cases owner.symm.trans none

theorem assign_of_inst {script : String} (inst : r.inst = some script) (name : String)
    (value : Value) :
    r.assign name value =
      match r.locals.assign name value with
      | .ok locals => (.ok (), { r with locals })
      | .error e => (.error e, r) := by
  unfold Rehearsal.assign
  split
  · rename_i none
    cases inst.symm.trans none
  · rfl

theorem Stands.assign (stands : r.Stands ctx ws) (name : String) (value : Value) :
    r.Agrees ctx ws (r.assign name value) (ctx.assign ws name value) := by
  cases owner : ctx.owner with
  | none =>
    have inst : r.inst = none := by rw [stands.inst, owner, Option.map_none]
    have global : ctx.assign ws name value = ctx.assignGlobal ws name value := by
      simp only [Context.assign, Context.assignGlobal, owner]
    rw [global, Rehearsal.assign, inst]
    exact stands.assignGlobal name value
  | some i =>
    have inst : r.inst = some i.name := by rw [stands.inst, owner, Option.map_some]
    rw [assign_of_inst inst, assign_of_owner owner, stands.locals i owner]
    cases i.locals.assign name value with
    | error e => exact stands.agrees_of_eq rfl
    | ok locals =>
      have speed := stands.settings_eq owner
      have own := stands.own (j := { i with locals }) owner rfl rfl speed
      exact ⟨rfl, own, rfl, ⟨[], by simp, by simp⟩, rfl⟩

theorem Stands.update (stands : r.Stands ctx ws) (name : String) (value : Value) :
    r.Agrees ctx ws (r.update name value) (ctx.update ws name value) := by
  simp only [Rehearsal.update, Context.update, stands.ownScope_eq, stands.globals]
  split
  · exact stands.assignGlobal name value
  · exact stands.assign name value

theorem Stands.remove (stands : r.Stands ctx ws) (name : String) :
    r.Keeps ctx ws (r.remove name) (ctx.remove ws name).1 (ctx.remove ws name).2 := by
  have inst := stands.inst
  unfold Rehearsal.remove Context.remove
  split
  · rename_i bare
    rw [bare] at inst
    split
    · rename_i owner
      rw [owner] at inst
      cases inst
    · exact ⟨{ stands with globals := congrArg (·.erase name) stands.globals }, rfl,
        ⟨[], by simp, by simp⟩, rfl⟩
  · rename_i script named
    rw [named] at inst
    split
    · rename_i i owner
      have erased := congrArg (·.erase name) (stands.locals i owner)
      have speed := stands.settings_eq owner
      have own := stands.own (j := { i with locals := i.locals.erase name }) owner rfl erased speed
      exact ⟨own, rfl, ⟨[], by simp, by simp⟩, rfl⟩
    · rename_i owner
      rw [owner] at inst
      cases inst

theorem Stands.setTypingSpeed (stands : r.Stands ctx ws) (speed : Option Binary64) :
    r.Keeps ctx ws { r with typingSpeed := speed } (ctx.setSettings ws { typingSpeed := speed }).1
      (ctx.setSettings ws { typingSpeed := speed }).2 := by
  unfold Context.setSettings
  split
  · rename_i i owner
    have own := stands.own (j := { i with settings := { typingSpeed := speed } }) owner rfl
      (stands.locals i owner) rfl
    exact ⟨own, rfl, ⟨[], by simp, by simp⟩, rfl⟩
  · rename_i owner
    refine ⟨{ stands with typingSpeed := ?_ }, rfl, ⟨[], by simp, by simp⟩, rfl⟩
    simp only [Context.settings, owner]

theorem goTo_of_owner {i : Instance} (owner : ctx.owner = some i) (index : Nat) :
    ctx.goTo index =
      if index < i.source.length then (true, { ctx with jump := some index })
      else (false, ctx) := by
  unfold Context.goTo
  split
  · rename_i j same
    cases owner.symm.trans same
    rfl
  · rename_i none
    cases owner.symm.trans none

theorem Stands.goTo (stands : r.Stands ctx ws) (index : Nat) :
    r.Agrees ctx ws (r.goTo index) ((ctx.goTo index).1, (ctx.goTo index).2, ws) := by
  cases owner : ctx.owner with
  | none =>
    have bare : r.inst.isSome = false := by
      rw [stands.inst, owner, Option.map_none, Option.isSome_none]
    have refused : ctx.goTo index = (false, ctx) := by simp only [Context.goTo, owner]
    rw [Rehearsal.goTo, bare, refused]
    exact stands.agrees_of_eq rfl
  | some i =>
    have inside : (r.inst.isSome && decide (index < r.source.length)) =
        decide (index < i.source.length) := by
      rw [stands.inst, owner, stands.source i owner]
      rfl
    rw [Rehearsal.goTo, inside, goTo_of_owner owner]
    by_cases reaches : index < i.source.length
    · simp only [reaches, decide_true, if_true]
      exact ⟨rfl, { stands with jump := rfl }, rfl, ⟨[], by simp, by simp⟩, rfl⟩
    · simp only [reaches, decide_false, Bool.false_eq_true, if_false]
      exact stands.agrees_of_eq rfl

/-- The stage with other random numbers. -/
def stir (r : Rehearsal) (entropy : Entropy) : Rehearsal :=
  { r with entropy }

/-- A stage has random numbers of its own. -/
theorem Stands.stir (stands : r.Stands ctx ws) (here there : Entropy) :
    (r.stir here).Stands ctx (ws.stir there) :=
  { stands with }

/-- What is said on the line is said on the stage. -/
theorem Stands.display (stands : r.Stands ctx ws) (shown : ctx.mode.quiet = false) (text : String)
    (style : Style) :
    r.Keeps ctx ws (r.say (.output text style)) (ctx.display text style) ws := by
  unfold Context.display
  rw [shown]
  exact ⟨{ stands with }, rfl, ⟨[.output text style], rfl, rfl⟩, rfl⟩

/-- The request of a command `name` that both give the same answer to, unless it draws. -/
def Shared (name : String) (owner : Option Instance) (request : Request) : Prop :=
  request.isInquiry name owner = true ∨ request.isRemark = true ∨ request.isChange = true ∨
    ∃ index, request = .jump index

/-- The stage and the line give the same answers and stay in step. -/
theorem Stands.answer {name : String} (stands : r.Stands ctx ws) (shown : ctx.mode.quiet = false)
    (calm : name ∉ drawing) {request : Request}
    (shared : Shared name ctx.owner request) :
    r.Agrees ctx ws (r.answer request) (ctx.answer ws request) := by
  cases request with
  | write text style =>
    obtain ⟨stands', mode, said, evaluated⟩ := stands.display shown text style
    exact ⟨rfl, { stands' with }, mode, said, evaluated⟩
  | respond text style =>
    obtain ⟨stands', mode, said, evaluated⟩ := stands.display shown (text ++ "\n") style
    exact ⟨rfl, { stands' with }, mode, said, evaluated⟩
  | clearScreen => exact ⟨rfl, { stands with }, rfl, ⟨[.clear], rfl, rfl⟩, rfl⟩
  | report text => simp [Shared, Request.isInquiry, Request.isRemark, Request.isChange] at shared
  | isPseudo => simp [Shared, Request.isInquiry, Request.isRemark, Request.isChange] at shared
  | jump index => exact stands.goTo index
  | currentIndex =>
    obtain ⟨i, owner⟩ : ∃ i, ctx.owner = some i := by
      simpa [Shared, Request.isInquiry, Request.isRemark, Request.isChange,
        Option.isSome_iff_exists] using shared
    refine stands.agrees_of_eq ?_
    rw [stands.counter i owner, Context.currentIndex, owner]
  | source =>
    obtain ⟨i, owner⟩ : ∃ i, ctx.owner = some i := by
      simpa [Shared, Request.isInquiry, Request.isRemark, Request.isChange,
        Option.isSome_iff_exists] using shared
    refine stands.agrees_of_eq ?_
    rw [stands.source i owner, Context.source, owner]
  | instanceName => exact stands.agrees_of_eq stands.inst
  | expand template =>
    refine stands.agrees_of_eq ?_
    rw [stands.ownScope_eq, stands.globals]
  | assign target value => exact stands.assign target value
  | update target value => exact stands.update target value
  | assignGlobal target value => exact stands.assignGlobal target value
  | remove target => exact ⟨rfl, stands.remove target⟩
  | removeGlobal target =>
    exact ⟨rfl, { stands with globals := congrArg (·.erase target) stands.globals }, rfl,
      ⟨[], by simp [Rehearsal.answer], by simp [Context.answer]⟩, rfl⟩
  | schemas => exact stands.agrees_of_eq (congrArg (·.schemas) stands.registry)
  | schema target => exact stands.agrees_of_eq (congrArg (·.schema? target) stands.registry)
  | act a =>
    refine ⟨congrArg (fun d => (d.perform a).1) stands.device, ?_, rfl,
      ⟨[], by simp [Rehearsal.answer], by simp [Context.answer]⟩, rfl⟩
    exact { stands with device := congrArg (fun d => (d.perform a).2) stands.device }
  | position => exact stands.agrees_of_eq (congrArg (·.position) stands.device)
  | pixel point => exact stands.agrees_of_eq (congrArg (·.pixel point) stands.device)
  | screenSize => exact stands.agrees_of_eq (congrArg (·.screenSize) stands.device)
  | typingSpeed => exact stands.agrees_of_eq stands.typingSpeed
  | setTypingSpeed speed => exact ⟨rfl, stands.setTypingSpeed speed⟩
  | draw bound =>
    have draws : name ∈ drawing := by
      rcases shared with inquiry | remark | change | ⟨index, jump⟩
      · exact of_decide_eq_true inquiry
      · cases remark
      · cases change
      · cases jump
    exact absurd draws calm
  | _ =>
    -- What is left is the value of a variable.
    refine stands.agrees_of_eq ?_
    rw [stands.ownScope_eq, stands.globals]

/-! ## Actions -/

variable {nested : Line.Evaluator} {action : Ending} {name : String} {look : String → Option Value}

/-- The action comes to the same end on the stage and on the line, without a wait and without
evaluating a line. -/
def Meets (nested : Line.Evaluator) (action : Ending) (r : Rehearsal) (ctx : Context)
    (ws : Workspace) : Prop :=
  ∃ ctx' ws', Line.perform nested action ctx ws = .done ((perform action r).1, ctx') ws' ∧
    r.Keeps ctx ws (perform action r).2 ctx' ws'

theorem Stands.meets_done (stands : r.Stands ctx ws) (result : Except Fault Unit) :
    Meets nested (.done result) r ctx ws :=
  ⟨ctx, ws, rfl, stands.keeps⟩

/-- After a request that both answer alike they go on with the same reply. -/
theorem Agrees.meets {request : Request} {next : request.Reply → Ending}
    (agrees : r.Agrees ctx ws (r.answer request) (ctx.answer ws request))
    (rest : Meets nested (next (ctx.answer ws request).1) (r.answer request).2
      (ctx.answer ws request).2.1 (ctx.answer ws request).2.2) :
    Meets nested (.ask request next) r ctx ws := by
  have same : perform (.ask request next) r =
      perform (next (ctx.answer ws request).1) (r.answer request).2 := by
    rw [perform, agrees.reply]
  unfold Meets
  rw [same]
  obtain ⟨ctx', ws', ends, keeps⟩ := rest
  exact ⟨ctx', ws', ends, agrees.keeps.trans keeps⟩

/-- The last request, which decides how the action ends. -/
theorem Stands.meets_last {request : Request} {next : request.Reply → Ending}
    (stands : r.Stands ctx ws) (shown : ctx.mode.quiet = false)
    (calm : name ∉ drawing) (shared : Shared name ctx.owner request)
    (ends : ∀ reply, ∃ result, next reply = .done result) :
    Meets nested (.ask request next) r ctx ws := by
  have agrees := stands.answer shown calm shared
  obtain ⟨result, last⟩ := ends (ctx.answer ws request).1
  apply agrees.meets
  rw [last]
  exact agrees.keeps.stands.meets_done result

theorem Stands.meets_remarks (stands : r.Stands ctx ws) (shown : ctx.mode.quiet = false)
    (calm : name ∉ drawing) (remarks : action.Remarks) :
    Meets nested action r ctx ws := by
  induction action generalizing r ctx ws with
  | done result => exact stands.meets_done result
  | ask request next ih =>
    have agrees := stands.answer shown calm (.inr (.inl remarks.1))
    apply agrees.meets
    apply ih _ agrees.keeps.stands
    · rw [agrees.keeps.mode, shown]
    · exact remarks.2 _
  | _ => exact remarks.elim

/-- Two variables, one after the other, unless the first one is refused. -/
theorem Stands.meets_pair {first text : String}
    {next : Except AssignError Unit → Ending} (stands : r.Stands ctx ws)
    (shown : ctx.mode.quiet = false) (calm : name ∉ drawing)
    (second : (next (.ok ())).Assigns)
    (refused : ∀ e, next (.error e) = .done (.error (.assign e))) :
    Meets nested (.ask (.assign first (.text text)) next) r ctx ws := by
  have agrees : r.Agrees ctx ws (r.answer (.assign first (.text text)))
      (ctx.answer ws (.assign first (.text text))) := stands.assign first (.text text)
  apply agrees.meets
  have goesOn : ∀ reply : Except AssignError Unit,
      (∃ result, next reply = .done result) ∨ (next reply).Assigns := by
    intro reply
    cases reply with
    | ok _ => exact .inr second
    | error e => exact .inl ⟨_, refused e⟩
  rcases goesOn (ctx.answer ws (.assign first (.text text))).1 with ⟨result, done⟩ | assigns
  · rw [done]
    exact agrees.keeps.stands.meets_done result
  · generalize next (ctx.answer ws (.assign first (.text text))).1 = action at assigns
    obtain ⟨ends⟩ := assigns
    apply agrees.keeps.stands.meets_last
    · rw [agrees.keeps.mode, shown]
    · exact calm
    · exact .inr (.inr (.inl rfl))
    · exact fun reply => ⟨_, ends reply⟩

/-- What a command does last, unless it waits or evaluates a line. -/
theorem Stands.meets_final (stands : r.Stands ctx ws) (shown : ctx.mode.quiet = false)
    (calm : name ∉ drawing) (stays : name ∉ pausing)
    (final : Action.Final name look action) :
    Meets nested action r ctx ws ∨
      name ∈ nesting ∧ ∃ code quiet next, action = .evaluate code quiet next ∧
        ∀ e, (next e).Follows e := by
  cases final with
  | fault fault => exact .inl (stands.meets_done _)
  | remarks remarks => exact .inl (stands.meets_remarks shown calm remarks)
  | jump ends =>
    exact .inl (stands.meets_last shown calm (.inr (.inr (.inr ⟨_, rfl⟩)))
      fun reply => ⟨_, ends reply⟩)
  | change change suits renews ends =>
    exact .inl (stands.meets_last shown calm (.inr (.inr (.inl change)))
      fun reply => ⟨_, ends reply⟩)
  | pair pairs second refused => exact .inl (stands.meets_pair shown calm second refused)
  | sleep pauses => exact absurd pauses stays
  | start pauses => exact absurd pauses stays
  | read pauses => exact absurd pauses stays
  | nest nests follows => exact .inr ⟨nests, _, _, _, rfl, follows⟩

/-- A command that neither waits nor evaluates a line. -/
theorem Stands.meets (stands : r.Stands ctx ws) (shown : ctx.mode.quiet = false)
    (calm : name ∉ drawing) (stays : name ∉ pausing) (plain : name ∉ nesting)
    (resolves : action.Resolves name ctx.owner (Scope.visible? ctx.locals ws.globals)) :
    Meets nested action r ctx ws := by
  induction action generalizing r with
  | ask request next ih =>
    rw [Action.Resolves] at resolves
    split at resolves
    · rename_i inquiry
      have agrees := stands.answer shown calm (.inl inquiry)
      have faithful := Line.faithful_answer (rfl : ctx.owner = _) ws request
      have same := ctx.answer_inquiry_of_not_drawing inquiry calm ws
      have stands' := agrees.keeps.stands
      apply agrees.meets
      rw [same] at stands' ⊢
      exact ih _ stands' (resolves _ faithful)
    · rcases stands.meets_final shown calm stays resolves with meets | ⟨nests, -⟩
      · exact meets
      · exact absurd nests plain
  | _ =>
    rcases stands.meets_final shown calm stays resolves with meets | ⟨nests, -⟩
    · exact meets
    · exact absurd nests plain

/-! ### Whatever is drawn -/

/-- The action comes to the same end on the stage and on the line, whatever either draws. Both say
the same of the number that they draw below the bound. -/
def MeetsAny (action : Ending) (r : Rehearsal) (ctx : Context) (ws : Workspace) (bound : Nat)
    (said : Nat → List Message) : Prop :=
  ∀ (nested : Line.Evaluator) (here there : Entropy), ∃ ctx' ws',
    Line.perform nested action ctx (ws.stir there) =
      .done ((perform action (r.stir here)).1, ctx') ws' ∧
    (perform action (r.stir here)).2.output = r.output ++ said (here.draw bound).1 ∧
    ctx'.transcript = ctx.transcript ++ said (there.draw bound).1 ∧
    (perform action (r.stir here)).2.Stands ctx' ws'

/-- An action that draws nothing says the same whatever there is to be drawn: the stage cannot tell
one workspace from the other, and the line cannot tell one stage from the other. -/
theorem meetsAny_of_meets
    (meets : ∀ nested here there, Meets nested action (r.stir here) ctx (ws.stir there)) :
    ∃ said, MeetsAny action r ctx ws 0 fun _ => said := by
  obtain ⟨_, _, _, first⟩ := meets (fun _ _ _ _ _ => .endless) r.entropy ws.entropy
  obtain ⟨said, output, -⟩ := first.said
  refine ⟨said, fun nested here there => ?_⟩
  obtain ⟨ctx', ws', ends, keeps⟩ := meets nested here there
  obtain ⟨said', output', transcript'⟩ := keeps.said
  -- The same line beside the stage of the first run.
  obtain ⟨ctx'', ws'', ends'', keeps''⟩ := meets nested r.entropy there
  obtain ⟨said'', output'', transcript''⟩ := keeps''.said
  have line : ctx'' = ctx' := by
    have both := ends''.symm.trans ends
    simp only [Run.done.injEq, Prod.mk.injEq] at both
    exact both.1.2
  have stage : said'' = said := List.append_cancel_left (output''.symm.trans output)
  have same : said' = said := by
    rw [line] at transcript''
    rw [← stage]
    exact List.append_cancel_left (transcript'.symm.trans transcript'')
  subst same
  exact ⟨ctx', ws', ends, output', transcript', keeps.stands⟩

/-- The stage and the line respond texts, each its own. -/
theorem Stands.respond (stands : r.Stands ctx ws) (shown : ctx.mode.quiet = false)
    (text text' : String) :
    (ctx.respond text' {}).transcript = ctx.transcript ++ [.output (text' ++ "\n") {}] ∧
      (r.answer (.respond text {})).2.Stands (ctx.respond text' {}) ws := by
  have displayed : ctx.display (text' ++ "\n") {} = ctx.say (.output (text' ++ "\n") {}) := by
    rw [Context.display, shown]
    rfl
  rw [Context.respond, displayed]
  exact ⟨rfl, { stands with }⟩

theorem Stands.rolls (stands : r.Stands ctx ws) (shown : ctx.mode.quiet = false)
    (rolls : action.Rolls) : ∃ bound said, MeetsAny action r ctx ws bound said := by
  induction rolls with
  | fault fault =>
    refine ⟨0, fun _ => [], fun nested here there => ⟨ctx, ws.stir there, rfl, ?_, ?_, ?_⟩⟩
    · exact (List.append_nil _).symm
    · exact (List.append_nil _).symm
    · exact stands.stir here there
  | respond text =>
    refine ⟨0, fun _ => [.output (text ++ "\n") {}], fun nested here there => ?_⟩
    obtain ⟨transcript, after⟩ := (stands.stir here there).respond shown text text
    exact ⟨ctx.respond text {}, ws.stir there, rfl, rfl, transcript, after⟩
  | draw bound text =>
    refine ⟨bound, fun n => [.output (text n ++ "\n") {}], fun nested here there => ?_⟩
    obtain ⟨transcript, after⟩ := (stands.stir (here.draw bound).2 (there.draw bound).2).respond
      shown (text (here.draw bound).1) (text (there.draw bound).1)
    exact ⟨ctx.respond (text (there.draw bound).1) {}, ws.stir (there.draw bound).2, rfl, rfl,
      transcript, after⟩
  | @expand template next rest ih =>
    -- Both expand the template to the same text, and go on with it.
    obtain ⟨bound, said, goesOn⟩ :=
      ih (Template.expand (Scope.visibleText? ctx.locals ws.globals) template)
    refine ⟨bound, said, fun nested here there => ?_⟩
    have stage : perform (.ask (.expand template) next) (r.stir here) =
        perform (next (Template.expand (Scope.visibleText? ctx.locals ws.globals) template))
          (r.stir here) := by
      rw [← stands.ownScope_eq, ← stands.globals]
      rfl
    rw [stage]
    exact goesOn nested here there

/-! ### Lines that are evaluated -/

/-- The stage takes down a line that is to be evaluated, and it is the line that is evaluated. -/
def Notes (action : Ending) (r : Rehearsal) (ctx : Context) (ws : Workspace) : Prop :=
  ∃ code quiet rest, (perform action r).2.evaluated = r.evaluated ++ [(code, quiet)] ∧
    ∀ nested : Line.Evaluator, Line.perform nested action ctx ws =
      (nested { pseudo := true, quiet } code ctx.owner ctx.transcript ws).bind rest

/-- What follows the line that a command evaluates takes down no other, and is the same whoever
evaluates it. -/
theorem follows_plain {e : Evaluation} (follows : action.Follows e) :
    (∀ r : Rehearsal, (perform action r).2.evaluated = r.evaluated) ∧
      ∀ nested nested' : Line.Evaluator, ∀ ctx ws,
        Line.perform nested action ctx ws = Line.perform nested' action ctx ws := by
  rcases follows with rfl | ⟨-, -, assigns⟩
  · exact ⟨fun _ => rfl, fun _ _ _ _ => rfl⟩
  · obtain ⟨ends⟩ := assigns
    rename_i target text next
    constructor
    · intro r
      have last := ends (r.assign target (.text text)).1
      show (perform (next (r.assign target (.text text)).1)
        (r.assign target (.text text)).2).2.evaluated = _
      rw [last]
      show (r.assign target (.text text)).2.evaluated = r.evaluated
      unfold assign assignGlobal
      split
      · split <;> rfl
      · split <;> rfl
    · intro nested nested' ctx ws
      have last := ends (ctx.assign ws target (.text text)).1
      show Line.perform nested (next (ctx.assign ws target (.text text)).1) _ _ =
        Line.perform nested' (next (ctx.assign ws target (.text text)).1) _ _
      rw [last]
      rfl

theorem notes_evaluate {code : String} {quiet : Bool} {next : Evaluation → Ending}
    (shown : ctx.mode.quiet = false) (follows : ∀ e, (next e).Follows e) :
    Notes (.evaluate code quiet next) r ctx ws := by
  let nobody : Line.Evaluator := fun _ _ _ _ _ => .endless
  refine ⟨code, quiet, fun e ws => Line.perform nobody (next e.evaluation)
    (ctx.afterNested e.evaluation e.owner e.transcript) ws, ?_, ?_⟩
  · rw [perform]
    exact (follows_plain (follows _)).1 _
  · intro nested
    rw [Line.perform, shown, Bool.or_false]
    congr 1
    funext e ws
    exact (follows_plain (follows _)).2 nested nobody _ ws

theorem Stands.meets_or_notes_final (stands : r.Stands ctx ws) (shown : ctx.mode.quiet = false)
    (nests : name ∈ nesting) (final : Action.Final name look action) :
    (∀ nested, Meets nested action r ctx ws) ∨ Notes action r ctx ws := by
  have noDraw := not_mem_drawing_of_mem_nesting nests
  have stays := not_mem_pausing_of_mem_nesting nests
  by_cases evaluates : ∃ code quiet next, action = .evaluate code quiet next ∧
      ∀ e, (next e).Follows e
  · obtain ⟨code, quiet, next, rfl, follows⟩ := evaluates
    exact .inr (notes_evaluate shown follows)
  · left
    intro nested
    rcases stands.meets_final shown noDraw stays final with
      meets | ⟨-, nest⟩
    · exact meets
    · exact absurd nest evaluates

/-- A command that evaluates a line has done nothing else before. -/
theorem Stands.meets_or_notes (stands : r.Stands ctx ws) (shown : ctx.mode.quiet = false)
    (nests : name ∈ nesting)
    (resolves : action.Resolves name ctx.owner (Scope.visible? ctx.locals ws.globals)) :
    (∀ nested, Meets nested action r ctx ws) ∨ Notes action r ctx ws := by
  have noDraw := not_mem_drawing_of_mem_nesting nests
  induction action generalizing r with
  | ask request next ih =>
    rw [Action.Resolves] at resolves
    split at resolves
    · rename_i inquiry
      have agrees := stands.answer shown noDraw (.inl inquiry)
      have faithful := Line.faithful_answer (rfl : ctx.owner = _) ws request
      have same := ctx.answer_inquiry_of_not_drawing inquiry noDraw ws
      have stands' := agrees.keeps.stands
      rw [same] at stands'
      rcases ih _ stands' (resolves _ faithful) with meets | notes
      · left
        intro nested
        apply agrees.meets
        rw [same]
        exact meets nested
      · right
        have stage : perform (.ask request next) r =
            perform (next (ctx.answer ws request).1) (r.answer request).2 := by
          rw [perform, agrees.reply]
        have line : ∀ nested : Line.Evaluator, Line.perform nested (.ask request next) ctx ws =
            Line.perform nested (next (ctx.answer ws request).1) ctx ws := by
          intro nested
          simp only [Line.perform, same]
        unfold Notes
        simp only [stage, line, ← agrees.keeps.evaluated]
        exact notes
    · exact stands.meets_or_notes_final shown nests resolves
  | _ => exact stands.meets_or_notes_final shown nests resolves

end

/-! ## Commands -/

/-- A builtin command comes to the same end on a stage and on a line that shows its output, if the
stage holds what the line sees: the same result, the same messages, the same line to go to, the same
variables, settings and acts of the device. That is so whatever the two draw at random, each from a
source of its own: only what the two commands that draw say depends on it, and both say the same of
the number that they draw. Those that wait are apart. A command that evaluates a line has done
nothing else before it, and the stage takes down which line it is and whether it is to be quiet. -/
theorem rehearsal_is_faithful {c : Command} (builtin : c ∈ builtins) (args : List String)
    {r : Rehearsal} {ctx : Context} {ws : Workspace} (stands : r.Stands ctx ws)
    (shown : ctx.mode.quiet = false) :
    (c.schema.name ∉ ["run", "visit", "if", "assign", "wait", "readline", "readkey"] →
      ∃ (bound : Nat) (said : Nat → List Message),
        (c.schema.name ∉ ["random", "randomf"] → ∀ m n, said m = said n) ∧
        ∀ nested (here there : Entropy), ∃ ctx' ws',
          Line.perform nested (c.run args).run ctx (ws.stir there) =
            .done (((r.stir here).run c args).1, ctx') ws' ∧
          ((r.stir here).run c args).2.output = r.output ++ said (here.draw bound).1 ∧
          ctx'.transcript = ctx.transcript ++ said (there.draw bound).1 ∧
          ((r.stir here).run c args).2.Stands ctx' ws') ∧
      (c.schema.name ∈ ["visit", "if", "assign"] →
        ((r.run c args).2.evaluated = r.evaluated ∧
          ∀ nested, ∃ ctx' ws' said,
            Line.perform nested (c.run args).run ctx ws = .done ((r.run c args).1, ctx') ws' ∧
            (r.run c args).2.output = r.output ++ said ∧
            ctx'.transcript = ctx.transcript ++ said ∧ (r.run c args).2.Stands ctx' ws') ∨
        ∃ code quiet rest,
          (r.run c args).2.evaluated = r.evaluated ++ [(code, quiet)] ∧
          ∀ nested : Line.Evaluator, Line.perform nested (c.run args).run ctx ws =
            (nested { pseudo := true, quiet } code ctx.owner ctx.transcript ws).bind rest) := by
  constructor
  · intro other
    by_cases draws : c.schema.name ∈ drawing
    · obtain ⟨bound, said, meets⟩ := stands.rolls shown (builtins_roll c builtin draws args)
      exact ⟨bound, said, fun calm => absurd draws calm, meets⟩
    · have apart : ∀ name ∈ pausing ++ nesting,
          name ∈ ["run", "visit", "if", "assign", "wait", "readline", "readkey"] := by decide
      have stays : c.schema.name ∉ pausing :=
        fun pauses => other (apart _ (List.mem_append_left _ pauses))
      have plain : c.schema.name ∉ nesting :=
        fun nests => other (apart _ (List.mem_append_right _ nests))
      have resolves := builtins_resolve c builtin ctx.owner
        (Scope.visible? ctx.locals ws.globals) args
      have meets : ∀ nested here there,
          Meets nested (c.run args).run (r.stir here) ctx (ws.stir there) :=
        fun _ here there => (stands.stir here there).meets shown draws stays plain resolves
      obtain ⟨said, meets⟩ := meetsAny_of_meets meets
      exact ⟨0, fun _ => said, fun _ _ _ => rfl, meets⟩
  · intro nests
    rcases stands.meets_or_notes shown nests (builtins_resolve c builtin ctx.owner _ args) with
      meets | notes
    · have opened : ∀ {nested}, Meets nested (c.run args).run r ctx ws →
          (r.run c args).2.evaluated = r.evaluated ∧ ∃ ctx' ws' said,
            Line.perform nested (c.run args).run ctx ws = .done ((r.run c args).1, ctx') ws' ∧
            (r.run c args).2.output = r.output ++ said ∧
            ctx'.transcript = ctx.transcript ++ said ∧ (r.run c args).2.Stands ctx' ws' := by
        rintro nested ⟨ctx', ws', ends, keeps⟩
        obtain ⟨said, output, transcript⟩ := keeps.said
        exact ⟨keeps.evaluated, ctx', ws', said, ends, output, transcript, keeps.stands⟩
      have nobody : Line.Evaluator := fun _ _ _ _ _ => .endless
      exact .inl ⟨(opened (meets nobody)).1, fun nested => (opened (meets nested)).2⟩
    · exact .inr notes

/-- A script on its way to add to a list that it does not have itself. -/
def shopper : Instance :=
  .ofText "shop" "listadd basket $item" 0 0

/-- Its line, which has a variable of that name. -/
def shopping : Context :=
  { line := "listadd basket $item",
    owner := some { shopper with locals := ⟨⟨[("item", .text "pear")]⟩⟩ } }

/-- Where the list is a global variable. -/
def shop : Workspace :=
  { Workspace.isolated with globals := ⟨⟨[("basket", .list ["apple"])]⟩⟩ }

/-- The stage for it. -/
def shopStage : Rehearsal :=
  { inst := some "shop"
    source := shopper.source
    locals := ⟨⟨[("item", .text "pear")]⟩⟩
    globals := ⟨⟨[("basket", .list ["apple"])]⟩⟩ }

theorem shopStage_stands : shopStage.Stands shopping shop where
  inst := rfl
  source i owner := by cases owner; rfl
  counter i owner := by cases owner; rfl
  locals i owner := by cases owner; rfl
  globals := rfl
  typingSpeed := rfl
  registry := by rw [shopStage, shop, Workspace.isolated]
  device := rfl
  jump := rfl

theorem shopper_rehearses :
    (match (shopStage.run Builtin.listAdd ["basket", "$item"]).2.globals.get? "basket" with
      | some (.list items) => items
      | _ => []) = ["apple", "pear"] ∧
      ∀ nested (here there : Entropy), ∃ ctx' ws' said,
        Line.perform nested (Builtin.listAdd.run ["basket", "$item"]).run shopping
            (shop.stir there) =
          .done (((shopStage.stir here).run Builtin.listAdd ["basket", "$item"]).1, ctx') ws' ∧
        ((shopStage.stir here).run Builtin.listAdd ["basket", "$item"]).2.output =
          shopStage.output ++ said ∧
        ctx'.transcript = shopping.transcript ++ said ∧
        ((shopStage.stir here).run Builtin.listAdd ["basket", "$item"]).2.Stands ctx' ws' := by
  refine ⟨by decide +kernel, fun nested here there => ?_⟩
  obtain ⟨bound, said, same, meets⟩ := (rehearsal_is_faithful (c := Builtin.listAdd)
    (by simp [builtins]) ["basket", "$item"] shopStage_stands rfl).1 (by decide)
  obtain ⟨ctx', ws', ends, output, transcript, stands⟩ := meets nested here there
  refine ⟨ctx', ws', said (here.draw bound).1, ends, output, ?_, stands⟩
  rw [transcript, same (by decide) (there.draw bound).1 (here.draw bound).1]

end Rehearsal

end LineScript
