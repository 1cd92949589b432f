import LineScript.Proofs.Line.Saga
import LineScript.Proofs.Script.Tick
import LineScript.Proofs.Workspace.Start

/-!
# Lines that keep to themselves

A line of a script that writes no global variable, leaves the device alone, asks for no input,
starts nothing and is not refused a start because of a running script does not notice who else is
there. Two workspaces are `Beside` each other for an instance if they hold the same for it and the
first one has all the scripts of the second one. From workspaces beside each other the line goes
the same way up to its next wait, draws the same random numbers and goes on with the very same rest
(`Saga.Mirrors`). This holds of any commands.
-/

namespace LineScript

namespace Contact

/-- It comes out the same whoever else is running. -/
def IsPrivate : Contact → Prop
  | .start (some error) => ∀ name, error ≠ .alreadyActive name
  | _ => False

end Contact

namespace Saga

/-- Nothing that is noted before the next wait has to do with others. -/
def IsPrivate {α : Type} (saga : Saga α) : Prop :=
  ∀ contact ∈ saga.contacts, contact.IsPrivate

end Saga

/-! ## Workspaces side by side -/

namespace Workspace

/-- All that a line of a script looks at, apart from who is running and random numbers. -/
structure Shares (ws ws' : Workspace) : Prop where
  config : ws'.config = ws.config
  registry : ws'.registry = ws.registry
  device : ws'.device = ws.device
  store : ws'.store = ws.store
  globals : ws'.globals = ws.globals
  driven : ws'.driven = ws.driven
  now : ws'.now = ws.now

/-- The instance finds the same in both, and all scripts of the second are running in the first. -/
structure Beside (who : Instance) (ws ws' : Workspace) : Prop extends Shares ws ws' where
  entropy : ws'.entropy = ws.entropy
  current : ws'.isCurrent who = ws.isCurrent who
  names : ∀ name ∈ ws'.scheduler.names, name ∈ ws.scheduler.names

/-- The workspace with other random numbers. -/
def stir (ws : Workspace) (entropy : Entropy) : Workspace :=
  { ws with entropy }

/-- From workspaces beside each other the same random numbers have been drawn in both, and nothing
else has happened. -/
structure Draws (ws ws' last last' : Workspace) : Prop where
  here : last = ws.stir last.entropy
  there : last' = ws'.stir last.entropy

variable {who : Instance} {ws ws' mid mid' last last' : Workspace}

theorem Shares.refl (ws : Workspace) : Shares ws ws :=
  ⟨rfl, rfl, rfl, rfl, rfl, rfl, rfl⟩

theorem Shares.symm (h : Shares ws ws') : Shares ws' ws :=
  ⟨h.config.symm, h.registry.symm, h.device.symm, h.store.symm, h.globals.symm, h.driven.symm,
    h.now.symm⟩

theorem Shares.trans (first : Shares ws ws') (second : Shares ws' last) : Shares ws last :=
  ⟨second.config.trans first.config, second.registry.trans first.registry,
    second.device.trans first.device, second.store.trans first.store,
    second.globals.trans first.globals, second.driven.trans first.driven,
    second.now.trans first.now⟩

theorem Beside.refl (who : Instance) (ws : Workspace) : Beside who ws ws :=
  ⟨.refl ws, rfl, rfl, fun _ mem => mem⟩

theorem Beside.congr {other : Instance} (h : Beside who ws ws') (same : other.entry = who.entry) :
    Beside other ws ws' :=
  { h with
    current := by
      rw [ws'.isCurrent_congr same, ws.isCurrent_congr same]
      exact h.current }

theorem Beside.draws_refl (h : Beside who ws ws') : Draws ws ws' ws ws' where
  here := rfl
  there := by
    rw [stir, ← h.entropy]

theorem Draws.trans (first : Draws ws ws' mid mid') (second : Draws mid mid' last last') :
    Draws ws ws' last last' where
  here := by
    rw [second.here, first.here]
    rfl
  there := by
    rw [second.there, first.there]
    rfl

theorem Beside.draws (h : Beside who ws ws') (draws : Draws ws ws' last last') :
    Beside who last last' := by
  rw [draws.there, draws.here]
  exact ⟨{ h.toShares with }, rfl, h.current, h.names⟩

/-- A start that is refused, but not because of a running script, is refused beside it for the same
reason. -/
theorem Beside.startBatch_eq_error (h : Beside who ws ws') {invoker : Option String}
    {names : List String} {error : StartError}
    (refused : ws.startBatch invoker names = .error error)
    (other : ∀ name, error ≠ .alreadyActive name) :
    ws'.startBatch invoker names = .error error := by
  have fewer : (∀ n ∈ names, n ∉ ws.scheduler.names) → ∀ n ∈ names, n ∉ ws'.scheduler.names :=
    fun idle n mem running => idle n mem (h.names n running)
  cases driven : ws.driven with
  | false =>
    have alone : ws'.driven = false := by rw [h.driven, driven]
    have nobody : ∀ {ws : Workspace}, ws.driven = false →
        ws.startBatch invoker names = .error .noDriver := by
      intro ws driven
      simp only [startBatch, driven]
      rfl
    rw [nobody driven] at refused
    rw [nobody alone, refused]
  | true =>
    rw [startBatch_eq_error_iff (by rw [h.driven, driven])]
    cases (startBatch_eq_error_iff driven).mp refused with
    | selfReference starts mem => exact .selfReference starts mem
    | duplicate apart split distinct again => exact .duplicate apart split distinct again
    | alreadyActive => exact absurd rfl (other _)
    | unknownScript apart distinct idle split loads missing =>
      refine .unknownScript apart distinct (fewer idle) split ?_ ?_
      · rwa [h.store]
      · rwa [h.store]
    | store apart distinct idle split loads failed =>
      refine .store apart distinct (fewer idle) split ?_ ?_
      · rwa [h.store]
      · rwa [h.store]

end Workspace

theorem Scope.erase_of_not_contains {s : Scope} {name : String} (h : s.contains name = false) :
    s.erase name = s := by
  have missing : s.bindings.entries.lookup name = none := by
    simpa [Scope.contains, Bindings.contains, Bindings.get?] using h
  have kept : s.bindings.entries.filter (·.1 != name) = s.bindings.entries := by
    refine List.filter_eq_self.mpr fun entry mem => ?_
    exact bne_comm.trans (List.lookup_eq_none_iff.mp missing entry mem)
  rw [erase, Bindings.erase, kept]

namespace Context

open Workspace

variable {who : Instance} {ws ws' : Workspace} {ctx : Context}

/-- The two answers are the same but for the workspaces, to which the same was done. -/
structure Alongside {ρ : Type} (ws ws' : Workspace) (a b : ρ × Context × Workspace) : Prop where
  reply : b.1 = a.1
  context : b.2.1 = a.2.1
  draws : Draws ws ws' a.2.2 b.2.2

/-- What a request has to do with others is the same in workspaces that share the variables. -/
theorem contact?_eq (ctx : Context) (shares : Shares ws ws') (r : Request) :
    ctx.contact? ws' r = ctx.contact? ws r := by
  cases r with
  | assignGlobal name value => simp only [contact?, shares.globals]
  | update name value => simp only [contact?, shares.globals]
  | removeGlobal name => simp only [contact?, shares.globals]
  | _ => rfl

theorem not_isPrivate_of_contact? {r : Request} {contact : Contact}
    (h : ctx.contact? ws r = some contact) : ¬ contact.IsPrivate := by
  have shared : contact = .act ∨ contact = .global := by
    unfold contact? at h
    split at h
    case _ => exact .inl (Option.some.inj h).symm
    case _ => exact .inr (by simpa [eq_comm] using (Option.ite_none_right_eq_some.mp h).2)
    case _ => exact .inr (by simpa [eq_comm] using (Option.ite_none_right_eq_some.mp h).2)
    case _ => exact .inr (by simpa [eq_comm] using (Option.ite_none_right_eq_some.mp h).2)
    case _ => cases h
  rcases shared with rfl | rfl
  · exact id
  · exact id

theorem assignGlobal_alongside (h : Beside who ws ws') {name : String} {value : Value}
    (refused : (ws.globals.assign name value).isOk = false) :
    Alongside ws ws' (ctx.assignGlobal ws name value) (ctx.assignGlobal ws' name value) := by
  unfold assignGlobal
  rw [h.globals]
  cases result : ws.globals.assign name value with
  | ok globals =>
    rw [result] at refused
    cases refused
  | error e => exact ⟨rfl, rfl, h.draws_refl⟩

theorem assign_alongside (h : Beside who ws ws') (owned : ctx.owner.isSome = true) (name : String)
    (value : Value) : Alongside ws ws' (ctx.assign ws name value) (ctx.assign ws' name value) := by
  obtain ⟨i, owner⟩ := Option.isSome_iff_exists.mp owned
  simp only [assign, owner]
  cases i.locals.assign name value with
  | ok locals => exact ⟨rfl, rfl, h.draws_refl⟩
  | error e => exact ⟨rfl, rfl, h.draws_refl⟩

theorem drawn_alongside (ctx : Context) (drawn : Nat × Entropy) :
    Alongside ws ws' (drawn.1, ctx, { ws with entropy := drawn.2 })
      (drawn.1, ctx, { ws' with entropy := drawn.2 }) :=
  ⟨rfl, rfl, rfl, rfl⟩

/-- An answer to a line with an owner is the same in workspaces beside each other, unless the
request has to do with others. -/
theorem answer_alongside (h : Beside who ws ws') (owned : ctx.owner.isSome = true) (r : Request)
    (alone : ctx.contact? ws r = none) :
    Alongside ws ws' (ctx.answer ws r) (ctx.answer ws' r) := by
  obtain ⟨i, owner⟩ := Option.isSome_iff_exists.mp owned
  cases r with
  | report text => exact ⟨rfl, by simp only [answer, h.config], h.draws_refl⟩
  | expand template =>
    refine ⟨?_, rfl, h.draws_refl⟩
    exact congrArg (fun g => Template.expand (Scope.visibleText? ctx.locals g) template) h.globals
  | assign name value => exact assign_alongside h owned name value
  | update name value =>
    simp only [answer, update, h.globals]
    simp only [contact?] at alone
    split
    · rename_i isGlobal
      refine assignGlobal_alongside h ?_
      simpa [isGlobal] using alone
    · exact assign_alongside h owned name value
  | remove name =>
    simp only [answer, remove, owner]
    exact ⟨rfl, rfl, h.draws_refl⟩
  | assignGlobal name value =>
    refine assignGlobal_alongside h ?_
    simpa [contact?] using alone
  | removeGlobal name =>
    have missing : ws.globals.contains name = false := by simpa [contact?] using alone
    have same := Scope.erase_of_not_contains missing
    simp only [answer, h.globals, same]
    refine ⟨rfl, rfl, rfl, ?_⟩
    rw [← h.globals]
    exact h.draws_refl.there
  | schemas => exact ⟨congrArg Registry.schemas h.registry, rfl, h.draws_refl⟩
  | schema name => exact ⟨congrArg (·.schema? name) h.registry, rfl, h.draws_refl⟩
  | act act => cases alone
  | position => exact ⟨congrArg Device.position h.device, rfl, h.draws_refl⟩
  | pixel point => exact ⟨congrArg (·.pixel point) h.device, rfl, h.draws_refl⟩
  | screenSize => exact ⟨congrArg Device.screenSize h.device, rfl, h.draws_refl⟩
  | typingSpeed => exact ⟨by simp only [answer, settings, owner]; rfl, rfl, h.draws_refl⟩
  | setTypingSpeed speed =>
    simp only [answer, setSettings, owner]
    exact ⟨rfl, rfl, h.draws_refl⟩
  | draw bound =>
    show Alongside ws ws' ((ws.entropy.draw bound).1, ctx, _) ((ws'.entropy.draw bound).1, ctx, _)
    rw [h.entropy]
    exact drawn_alongside ctx (ws.entropy.draw bound)
  | _ =>
    -- The others do not look at the workspace, and a variable is a local or a global one.
    refine ⟨?_, rfl, h.draws_refl⟩
    simp only [answer, h.globals]
    rfl

end Context

/-! ## Sagas side by side -/

namespace Saga

open Workspace

variable {α β : Type} {who : Instance} {ws ws' mid mid' : Workspace}
  {F : Workspace → Workspace → α → Workspace → Workspace → Prop}
  {G : Workspace → Workspace → β → Workspace → Workspace → Prop}

/-- From workspaces beside each other the sagas come to the same end or the same wait, unless the
first one has to do with others. They wait for a time, and go on in the same way. -/
inductive Mirrors (who : Instance) (F : Workspace → Workspace → α → Workspace → Workspace → Prop) :
    Workspace → Workspace → Saga α → Saga α → Prop where
  | done {ws ws' last last' : Workspace} {value : α} (final : F ws ws' value last last') :
      Mirrors who F ws ws' (.done value last) (.done value last')
  | note {ws ws' : Workspace} {contact : Contact} {saga saga' : Saga α}
      (rest : Mirrors who F ws ws' saga saga') :
      Mirrors who F ws ws' (.note contact saga) (.note contact saga')
  | involved {ws ws' : Workspace} {saga saga' : Saga α} (others : ¬ saga.IsPrivate) :
      Mirrors who F ws ws' saga saga'
  | await {ws ws' last last' : Workspace} {deadline : Nat} {next : Workspace → Saga α}
      (draws : Draws ws ws' last last')
      (rest : ∀ later later', Beside who later later' →
        Mirrors who F later later' (next later) (next later')) :
      Mirrors who F ws ws' (.await (.time deadline) last next) (.await (.time deadline) last' next)
  | endless {ws ws' : Workspace} : Mirrors who F ws ws' .endless .endless

/-- The same may have been done to both before. -/
theorem Mirrors.after {saga saga' : Saga α} (h : Mirrors who F mid mid' saga saga')
    (first : Draws ws ws' mid mid')
    (final : ∀ value last last', F mid mid' value last last' → F ws ws' value last last') :
    Mirrors who F ws ws' saga saga' := by
  induction h with
  | done ended => exact .done (final _ _ _ ended)
  | note _ ih => exact .note (ih first final)
  | involved others => exact .involved others
  | await draws rest _ => exact .await (first.trans draws) rest
  | endless => exact .endless

theorem Mirrors.bind {saga saga' : Saga α} {f : α → Workspace → Saga β}
    (h : Mirrors who F ws ws' saga saga') (beside : Beside who ws ws')
    (rest : ∀ ws ws' value last last', Beside who ws ws' → F ws ws' value last last' →
      Mirrors who G ws ws' (f value last) (f value last')) :
    Mirrors who G ws ws' (saga.bind f) (saga'.bind f) := by
  induction h with
  | done ended => exact rest _ _ _ _ _ beside ended
  | note _ ih => exact .note (ih beside)
  | involved others =>
    refine .involved fun priv => others fun contact mem => ?_
    exact priv contact (mem_contacts_bind mem)
  | await draws _ ih => exact .await draws fun later later' near => ih later later' near near
  | endless => exact .endless

/-- The owner is the instance but for variables and settings. -/
def OwnedBy (who : Instance) (owner : Option Instance) : Prop :=
  owner.map Instance.fixed = some who.fixed

theorem OwnedBy.isSome {owner : Option Instance} (h : OwnedBy who owner) : owner.isSome = true := by
  obtain ⟨i, rfl, -⟩ := Option.map_eq_some_iff.mp h
  rfl

/-- The saga of something that lines of the instance do: the same is done to both workspaces, and
the instance is still the owner. -/
def Secluded (who : Instance) (owner : α → Option Instance) (ws ws' : Workspace)
    (saga saga' : Saga α) : Prop :=
  Mirrors who (fun ws ws' value last last' => Draws ws ws' last last' ∧ OwnedBy who (owner value))
    ws ws' saga saga'

section

variable {owner : α → Option Instance} {owner' : β → Option Instance}

theorem Secluded.after {saga saga' : Saga α} (h : Secluded who owner mid mid' saga saga')
    (first : Draws ws ws' mid mid') : Secluded who owner ws ws' saga saga' :=
  Mirrors.after h first fun _ _ _ ended => ⟨first.trans ended.1, ended.2⟩

theorem Secluded.bind {saga saga' : Saga α} {f : α → Workspace → Saga β}
    (h : Secluded who owner ws ws' saga saga') (beside : Beside who ws ws')
    (rest : ∀ last last' value, Beside who last last' → OwnedBy who (owner value) →
      Secluded who owner' last last' (f value last) (f value last')) :
    Secluded who owner' ws ws' (saga.bind f) (saga'.bind f) :=
  Mirrors.bind h beside fun _ _ value _ _ near ended =>
    (rest _ _ value (near.draws ended.1) ended.2).after ended.1

theorem Secluded.waitUntil (beside : Beside who ws ws') (deadline : Nat)
    {next : Workspace → Saga α} (rest : ∀ later later', Beside who later later' →
      Secluded who owner later later' (next later) (next later')) :
    Secluded who owner ws ws' (waitFor (.time deadline) ws next)
      (waitFor (.time deadline) ws' next) := by
  have same : Wait.isOver ws' (.time deadline) = Wait.isOver ws (.time deadline) := by
    simp only [Wait.isOver, beside.now]
  unfold waitFor
  rw [same]
  split
  · exact rest ws ws' beside
  · exact .await beside.draws_refl rest

/-- The lines that are told are secluded. -/
def Discreet (teller : Teller) : Prop :=
  ∀ mode line owner transcript ws ws' who, OwnedBy who owner → Beside who ws ws' →
    Secluded who Line.Ended.owner ws ws' (teller mode line owner transcript ws)
      (teller mode line owner transcript ws')

theorem perform_secluded {nested : Teller} (discreet : Discreet nested) (action : Action α)
    (ctx : Context) (mine : OwnedBy who ctx.owner) (beside : Beside who ws ws') :
    Secluded who (fun result : α × Context => result.2.owner) ws ws'
      (perform nested action ctx ws) (perform nested action ctx ws') := by
  induction action generalizing ctx ws ws' with
  | done value => exact .done ⟨beside.draws_refl, mine⟩
  | ask r next ih =>
    simp only [perform, ctx.contact?_eq beside.toShares]
    cases contact : ctx.contact? ws r with
    | some contact' =>
      exact .involved fun priv =>
        Context.not_isPrivate_of_contact? contact (priv _ List.mem_cons_self)
    | none =>
      have same := Context.answer_alongside beside mine.isSome r contact
      have kept : OwnedBy who (ctx.answer ws r).2.1.owner := by
        rw [OwnedBy, Context.answer_owner]
        exact mine
      rw [same.reply, same.context]
      exact (ih _ _ kept (beside.draws same.draws)).after same.draws
  | evaluate line quiet next ih =>
    refine Secluded.bind (discreet _ _ _ _ _ _ _ mine beside) beside ?_
    intro last last' e near kept
    exact ih _ _ kept near
  | sleep duration next ih =>
    have deadline : ws'.timerAfter duration.milliseconds = ws.timerAfter duration.milliseconds := by
      rw [timerAfter, timerAfter, beside.now]
    simp only [perform, deadline]
    exact Secluded.waitUntil beside _ fun later later' near => ih ctx mine near
  | runScripts names next ih =>
    simp only [perform]
    cases asked : ws.startBatch (ctx.owner.map (·.name)) names with
    | ok result => exact .involved fun priv => priv _ List.mem_cons_self
    | error error =>
      by_cases other : ∀ name, error ≠ .alreadyActive name
      · rw [beside.startBatch_eq_error asked other]
        exact .note (ih _ ctx mine beside)
      · exact .involved fun priv => other (priv _ List.mem_cons_self)
  | readInput next ih => exact .involved fun priv => priv _ List.mem_cons_self

/-- By induction on how deep lines may be nested. -/
theorem evaluate_discreet (depth : Nat) : Discreet (evaluate depth) := by
  induction depth with
  | zero =>
    intro mode line owner transcript ws ws' who mine beside
    exact .endless
  | succ depth ih =>
    intro mode line owner transcript ws ws' who mine beside
    unfold evaluate
    simp only [beside.registry, beside.config]
    cases Line.read ws.registry line with
    | idle => exact .done ⟨beside.draws_refl, mine⟩
    | unknown name => exact .done ⟨beside.draws_refl, mine⟩
    | runs command args =>
      refine Secluded.bind (perform_secluded ih _ _ mine beside) beside ?_
      intro last last' result near kept
      have owner : (Line.leave command.schema last.config.errorColor result).owner =
          result.2.owner := by
        unfold Line.leave
        split <;> rfl
      simp only [near.config]
      exact .done ⟨near.draws_refl, owner ▸ kept⟩

end

/-- What is said with the end of a tick. -/
def said (ws last : Workspace) : List Message :=
  last.bus.pending.toList.drop ws.bus.pending.toList.length

/-- The end of a tick of the instance in two workspaces: the same has been drawn in both, and the
same is said. -/
structure Closes (who : Instance) (ws ws' : Workspace) (ticked : Ticked) (last last' : Workspace) :
    Prop where
  entry : ticked.inst.entry = who.entry
  here : last = (ws.stir last.entropy).publish (said ws last)
  there : last' = (ws'.stir last.entropy).publish (said ws last)

section

variable {ticked : Ticked} {last last' : Workspace}

theorem Closes.publish (entry : ticked.inst.entry = who.entry) (h : Draws ws ws' last last')
    (ms : List Message) : Closes who ws ws' ticked (last.publish ms) (last'.publish ms) := by
  have same : said ws (last.publish ms) = ms := by
    rw [h.here]
    simp [said, Workspace.publish, stir]
  refine ⟨entry, ?_, ?_⟩
  · rw [same]
    exact congrArg (Workspace.publish · ms) h.here
  · rw [same]
    exact congrArg (Workspace.publish · ms) h.there

theorem Closes.silent (entry : ticked.inst.entry = who.entry) (h : Draws ws ws' last last') :
    Closes who ws ws' ticked last last' := by
  simpa using Closes.publish entry h []

end

/-- The ticks of an instance are the same in workspaces beside each other. -/
theorem tick_mirrors (who : Instance) (beside : Beside who ws ws') :
    Mirrors who (Closes who) ws ws' (tick who ws) (tick who ws') := by
  unfold tick
  cases who.source[who.counter]? with
  | none => exact .done (.silent rfl beside.draws_refl)
  | some line =>
    dsimp only
    generalize Line.depthBound line who.extent = depth
    have told := evaluate_discreet depth {} line (some who) [] ws ws' who rfl beside
    refine Mirrors.bind told beside ?_
    rintro ws ws' e last last' near ⟨draws, mine⟩
    obtain ⟨owner, isOwner, fixed⟩ := Option.map_eq_some_iff.mp mine
    have entry := Instance.entry_eq_of_fixed_eq fixed
    have current : last'.isCurrent owner = last.isCurrent owner :=
      ((near.draws draws).congr entry).current
    simp only [Instance.conclude, isOwner, Option.getD_some, current]
    split
    · exact .done (.publish ((owner.advance_entry e.evaluation).trans entry) draws e.transcript)
    · exact .done (.silent entry draws)

/-! ## Private sagas -/

/-- What becomes of a private saga up to its next wait, in workspaces beside each other. -/
inductive Fate (who : Instance) (F : Workspace → Workspace → α → Workspace → Workspace → Prop)
    (ws ws' : Workspace) : Run α → Run α → Option (Workspace → Saga α) → Prop where
  | done {value : α} {last last' : Workspace} (final : F ws ws' value last last') :
      Fate who F ws ws' (.done value last) (.done value last') none
  | await {deadline : Nat} {last last' : Workspace} {next : Workspace → Saga α}
      (draws : Draws ws ws' last last')
      (rest : ∀ later later', Beside who later later' →
        Mirrors who F later later' (next later) (next later')) :
      Fate who F ws ws' (.await (.time deadline) last fun ws => (next ws).run)
        (.await (.time deadline) last' fun ws => (next ws).run) (some next)
  | endless : Fate who F ws ws' .endless .endless none

theorem Mirrors.fate {saga saga' : Saga α} (h : Mirrors who F ws ws' saga saga')
    (priv : saga.IsPrivate) :
    saga'.rest? = saga.rest? ∧ Fate who F ws ws' saga.run saga'.run saga.rest? := by
  induction h with
  | done final => exact ⟨rfl, .done final⟩
  | note _ ih => exact ih fun contact mem => priv contact (List.mem_cons_of_mem _ mem)
  | involved others => exact absurd priv others
  | await draws rest _ => exact ⟨rfl, .await draws rest⟩
  | endless => exact ⟨rfl, .endless⟩

end Saga

end LineScript
