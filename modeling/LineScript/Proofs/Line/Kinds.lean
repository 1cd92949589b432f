import LineScript.Proofs.Line.Failure
import LineScript.Proofs.Script.Counter

/-!
# The kinds of variables

What a line does to the kinds of variables. An assignment keeps the kinds that are there and adds a
name only if a variable may have it, so a scope grows; only the commands that delete a variable take
one away. By its account a line changes one scope once, with its last request, or sets two variables
in a row. So a scope either grows or loses a name (`Scope.Becomes`), and after a wait it only grows.

`Line.Revises` says so of a line, and `Run.Settles` of whatever is done with a line to its end: a
tick, or a line of the host.
-/

namespace LineScript

/-! ## Scopes -/

theorem checkName_eq_ok_iff {name : String} :
    checkName name = .ok () ↔ name ≠ "" ∧ ∀ c, name.toList.head? = some c → c.isDigit = false := by
  unfold checkName
  cases chars : name.toList with
  | nil =>
    have empty : name = "" := by simpa using chars
    simp [empty]
  | cons c rest =>
    have nonempty : name ≠ "" := by
      rintro rfl
      cases chars
    cases digit : c.isDigit <;> simp [nonempty, digit]

namespace Scope

variable {s s' s'' : Scope} {name : String} {kind : Kind} {deleted : String → Prop}

/-- The kind of a variable, if there is one of that name. -/
def kind? (s : Scope) (name : String) : Option Kind :=
  (s.get? name).map Value.kind

/-- Every name is one that a variable may have. -/
def Named (s : Scope) : Prop :=
  ∀ name kind, s.kind? name = some kind → checkName name = .ok ()

/-- A variable that is in both is of the same kind in both. -/
def Agrees (s s' : Scope) : Prop :=
  ∀ name kind kind', s.kind? name = some kind → s'.kind? name = some kind' → kind' = kind

/-- No variable is lost or changes its kind, and no name is added that a variable may not have. -/
structure Grows (s s' : Scope) : Prop where
  keeps : ∀ name kind, s.kind? name = some kind → s'.kind? name = some kind
  named : s.Named → s'.Named

/-- The scope grows, or it loses one name. -/
inductive Becomes (s : Scope) (deleted : String → Prop) : Scope → Prop where
  | grows {s' : Scope} (more : s.Grows s') : Becomes s deleted s'
  | loses {name : String} (gone : deleted name) : Becomes s deleted (s.erase name)

theorem kind?_insert (s : Scope) (name key : String) (value : Value) :
    kind? ⟨s.bindings.insert name value⟩ key =
      if key = name then some value.kind else s.kind? key := by
  simp only [kind?, get?, Bindings.get?_insert]
  split <;> rfl

theorem kind?_erase (s : Scope) (name key : String) :
    (s.erase name).kind? key = if key = name then none else s.kind? key := by
  simp only [kind?, get?, erase, Bindings.get?_erase]
  split <;> rfl

theorem named_empty : Named {} := by
  intro name kind found
  cases found

theorem Grows.refl (s : Scope) : s.Grows s :=
  ⟨fun _ _ found => found, id⟩

theorem Grows.trans (first : s.Grows s') (second : s'.Grows s'') : s.Grows s'' :=
  ⟨fun name kind found => second.keeps name kind (first.keeps name kind found),
    fun named => second.named (first.named named)⟩

/-- What a granted assignment has looked at. -/
theorem assign_ok {value : Value} (ok : s.assign name value = .ok s') :
    checkName name = .ok () ∧ s' = ⟨s.bindings.insert name value⟩ ∧
      ∀ kind, s.kind? name = some kind → value.kind = kind := by
  unfold assign at ok
  cases checked : checkName name with
  | error e =>
    rw [checked] at ok
    cases ok
  | ok _ =>
    rw [checked] at ok
    refine ⟨rfl, ?_⟩
    cases found : s.get? name with
    | none =>
      simp only [found, bind, Except.bind] at ok
      cases ok
      exact ⟨rfl, by simp [kind?, found]⟩
    | some existing =>
      simp only [found, bind, Except.bind] at ok
      split at ok
      · rename_i same
        cases ok
        refine ⟨rfl, ?_⟩
        intro kind known
        simp only [kind?, found, Option.map_some, Option.some.injEq] at known
        rw [← same, known]
      · cases ok

theorem Grows.of_assign {value : Value} (ok : s.assign name value = .ok s') : s.Grows s' := by
  obtain ⟨checked, rfl, same⟩ := assign_ok ok
  constructor
  · intro key kind found
    rw [kind?_insert]
    by_cases mine : key = name
    · subst mine
      rw [if_pos rfl, same kind found]
    · rw [if_neg mine, found]
  · intro named key kind found
    rw [kind?_insert] at found
    by_cases mine : key = name
    · rw [mine, checked]
    · rw [if_neg mine] at found
      exact named key kind found

theorem Grows.agrees (h : s.Grows s') : s.Agrees s' := by
  intro name kind kind' before after
  rw [h.keeps name kind before] at after
  exact (Option.some.inj after).symm

theorem Becomes.agrees (h : s.Becomes deleted s') : s.Agrees s' := by
  cases h with
  | grows more => exact more.agrees
  | @loses gone _ =>
    intro name kind kind' before after
    rw [kind?_erase] at after
    split at after
    · cases after
    · rw [before] at after
      exact (Option.some.inj after).symm

theorem Becomes.named (h : s.Becomes deleted s') (named : s.Named) : s'.Named := by
  cases h with
  | grows more => exact more.named named
  | loses _ =>
    intro name kind after
    rw [kind?_erase] at after
    split at after
    · cases after
    · exact named name kind after

/-- A variable that is not of its kind any more was deleted. -/
theorem Becomes.deleted_of_ne (h : s.Becomes deleted s') (before : s.kind? name = some kind)
    (after : s'.kind? name ≠ some kind) : deleted name := by
  cases h with
  | grows more => exact absurd (more.keeps name kind before) after
  | @loses lost gone =>
    rw [kind?_erase] at after
    split at after
    · rename_i same
      rw [same]
      exact gone
    · exact absurd before after

theorem Becomes.mono {deleted' : String → Prop} (h : s.Becomes deleted s')
    (imp : ∀ name, deleted name → deleted' name) : s.Becomes deleted' s' := by
  cases h with
  | grows more => exact .grows more
  | loses gone => exact .loses (imp _ gone)

theorem Becomes.grows_of_none (h : s.Becomes deleted s') (none : ∀ name, ¬ deleted name) :
    s.Grows s' := by
  cases h with
  | grows more => exact more
  | loses gone => exact absurd gone (none _)

end Scope

/-! ## Where variables are kept -/

/-- Where variables are kept: for everybody, or for the instance of a generation. -/
inductive Home where
  | globals
  | locals (generation : Nat)
  deriving DecidableEq

/-- Where a line keeps the variables that it sets. -/
def Home.of : Option Instance → Home
  | none => .globals
  | some i => .locals i.generation

/-- A variable was deleted, by the command for it. -/
def Entry.Deletes (owner : Option Instance) (home : Home) (name : String) (entry : Entry) : Prop :=
  match entry.deed with
  | .asked (.remove target) _ =>
    target = name ∧ home = .of owner ∧ Line.command? entry.line = some "deletevar"
  | .asked (.removeGlobal target) _ =>
    target = name ∧ home = .globals ∧ Line.command? entry.line = some "deleteglob"
  | _ => False

theorem Entry.Deletes.isRemoval {owner : Option Instance} {home : Home} {name : String}
    {entry : Entry} (h : entry.Deletes owner home name) : entry.isRemoval = true := by
  unfold Entry.Deletes at h
  split at h
  · rename_i deed
    simp only [Entry.isRemoval, deed]
  · rename_i deed
    simp only [Entry.isRemoval, deed]
  · exact h.elim

namespace Line

/-- A line of this owner with these entries has deleted a variable. -/
def Deletes (owner : Option Instance) (log : List Entry) (home : Home) (name : String) : Prop :=
  ∃ entry ∈ log, entry.Deletes owner home name

/-- What a line does to the variables that it can reach. -/
structure Revises (owner : Option Instance) (ws : Workspace) (log : List Entry)
    (after : Option Instance) (last : Workspace) : Prop where
  globals : ws.globals.Becomes (Deletes owner log .globals) last.globals
  locals : ∀ i, owner = some i → ∃ i', after = some i' ∧ i'.fixed = i.fixed ∧
    i.locals.Becomes (Deletes owner log (.locals i.generation)) i'.locals

/-- It has deleted nothing. -/
structure Grown (owner : Option Instance) (ws : Workspace) (after : Option Instance)
    (last : Workspace) : Prop where
  globals : ws.globals.Grows last.globals
  locals : ∀ i, owner = some i → ∃ i', after = some i' ∧ i'.fixed = i.fixed ∧
    i.locals.Grows i'.locals

section

variable {owner mid after : Option Instance} {ws start last : Workspace} {log : List Entry}
  {call : Call} {e : Ended}

theorem Grown.revises (h : Grown owner ws after last) (log : List Entry) :
    Revises owner ws log after last where
  globals := .grows h.globals
  locals := by
    intro i mine
    obtain ⟨i', after, same, more⟩ := h.locals i mine
    exact ⟨i', after, same, .grows more⟩

theorem Revises.grown (h : Revises owner ws log after last)
    (keeps : ∀ entry ∈ log, entry.isRemoval = false) : Grown owner ws after last := by
  have none : ∀ home name, ¬ Deletes owner log home name := by
    rintro home name ⟨entry, mem, deletes⟩
    have removes := deletes.isRemoval
    rw [keeps entry mem] at removes
    cases removes
  refine ⟨h.globals.grows_of_none (none _), ?_⟩
  intro i mine
  obtain ⟨i', after, same, becomes⟩ := h.locals i mine
  exact ⟨i', after, same, becomes.grows_of_none (none _)⟩

theorem Grown.of_eq (globals : last.globals = ws.globals) : Grown owner ws owner last where
  globals := by
    rw [globals]
    exact .refl _
  locals := fun i mine => ⟨i, mine, rfl, .refl _⟩

theorem Grown.trans {between : Workspace} (first : Grown owner ws mid between)
    (second : Grown mid between after last) : Grown owner ws after last where
  globals := first.globals.trans second.globals
  locals := by
    intro i mine
    obtain ⟨i', here, same, more⟩ := first.locals i mine
    obtain ⟨i'', there, same', more'⟩ := second.locals i' here
    exact ⟨i'', there, same'.trans same, more.trans more'⟩

/-! ## Requests -/

theorem assign_grown (ctx : Context) (ws : Workspace) (name : String) (value : Value) :
    Grown ctx.owner ws (ctx.assign ws name value).2.1.owner (ctx.assign ws name value).2.2 := by
  unfold Context.assign
  cases mine : ctx.owner with
  | none =>
    cases assigned : ws.globals.assign name value with
    | ok globals =>
      simp only [mine]
      exact ⟨.of_assign assigned, by simp⟩
    | error e =>
      simp only [mine]
      exact .of_eq rfl
  | some i =>
    cases assigned : i.locals.assign name value with
    | ok locals =>
      simp only [assigned]
      refine ⟨.refl _, ?_⟩
      intro j same
      cases same
      exact ⟨_, rfl, rfl, .of_assign assigned⟩
    | error e =>
      simp only [assigned, mine]
      exact .of_eq rfl

theorem assignGlobal_grown (ctx : Context) (ws : Workspace) (name : String) (value : Value) :
    Grown ctx.owner ws (ctx.assignGlobal ws name value).2.1.owner
      (ctx.assignGlobal ws name value).2.2 := by
  unfold Context.assignGlobal
  cases assigned : ws.globals.assign name value with
  | ok globals => exact ⟨.of_assign assigned, fun i mine => ⟨i, mine, rfl, .refl _⟩⟩
  | error e => exact .of_eq rfl

theorem update_grown (ctx : Context) (ws : Workspace) (name : String) (value : Value) :
    Grown ctx.owner ws (ctx.update ws name value).2.1.owner (ctx.update ws name value).2.2 := by
  unfold Context.update
  dsimp only
  split
  · exact assignGlobal_grown ctx ws name value
  · exact assign_grown ctx ws name value

theorem remove_revises (ctx : Context) (ws : Workspace) {target line : String}
    (mem : ⟨line, .asked (.remove target) ()⟩ ∈ log) (command : command? line = some "deletevar") :
    Revises ctx.owner ws log (ctx.remove ws target).1.owner (ctx.remove ws target).2 := by
  have deletes : Deletes ctx.owner log (.of ctx.owner) target :=
    ⟨_, mem, rfl, rfl, command⟩
  unfold Context.remove
  cases mine : ctx.owner with
  | none =>
    rw [mine] at deletes
    simp only [mine]
    exact ⟨.loses deletes, by simp⟩
  | some i =>
    rw [mine] at deletes
    refine ⟨.grows (.refl _), ?_⟩
    intro j same
    cases same
    exact ⟨_, rfl, rfl, .loses deletes⟩

/-- What a granted change does. -/
theorem answer_revises {ctx : Context} {r : Request} {line name : String}
    (change : r.isChange = true) (command : command? line = some name) (suits : r.Suits name)
    (mem : ⟨line, .asked r (ctx.answer ws r).1⟩ ∈ log) :
    Revises ctx.owner ws log (ctx.answer ws r).2.1.owner (ctx.answer ws r).2.2 := by
  cases r with
  | assign target value => exact (assign_grown ctx ws target value).revises log
  | update target value => exact (update_grown ctx ws target value).revises log
  | assignGlobal target value => exact (assignGlobal_grown ctx ws target value).revises log
  | remove target =>
    rw [show name = "deletevar" from suits] at command
    exact remove_revises ctx ws mem command
  | removeGlobal target =>
    rw [show name = "deleteglob" from suits] at command
    refine ⟨.loses ⟨_, mem, rfl, rfl, command⟩, ?_⟩
    exact fun i mine => ⟨i, mine, rfl, .grows (.refl _)⟩
  | act act =>
    have same : Grown ctx.owner ws ctx.owner (ctx.answer ws (.act act)).2.2 := .of_eq rfl
    exact same.revises log
  | setTypingSpeed speed =>
    simp only [Context.answer, Context.setSettings]
    cases mine : ctx.owner with
    | none =>
      simp only [mine]
      exact ⟨.grows (.refl _), by simp⟩
    | some i =>
      refine ⟨.grows (.refl _), ?_⟩
      intro j same
      cases same
      exact ⟨_, rfl, rfl, .grows (.refl _)⟩
  | _ => cases change

/-! ## Lines -/

theorem Close.revises (close : Close call start e last log) :
    Revises call.owner start log e.owner last := by
  cases close with
  | @spared entropy _ owner _ =>
    have same : Grown call.owner start call.owner (start.stir entropy) := .of_eq rfl
    rw [owner]
    exact same.revises log
  | @changed ctx entropy r log line name owner change command suits _ after _ _ _ _ =>
    have mem : ⟨line, .asked r (ctx.answer (start.stir entropy) r).1⟩ ∈
        log ++ [⟨line, .asked r (ctx.answer (start.stir entropy) r).1⟩] :=
      List.mem_append_right _ (List.mem_singleton_self _)
    have revises := answer_revises change command suits mem
    rw [after, ← owner]
    exact ⟨revises.globals, revises.locals⟩
  | @paired ctx ctx' entropy target target' text text' _ _ owner _ _ between after _ _ =>
    have first := assign_grown ctx (start.stir entropy) target (.text text)
    have second := assign_grown ctx' (ctx.assign (start.stir entropy) target (.text text)).2.2
      target' (.text text')
    rw [show ctx'.owner = (ctx.assign (start.stir entropy) target (.text text)).2.1.owner
      from between] at second
    have both := (first.trans second).revises log
    rw [after, ← owner]
    exact ⟨both.globals, both.locals⟩

theorem globals_resume (wait : Wait) (later : Workspace) :
    (wait.resume later).globals = later.globals := by
  cases wait <;> rfl

theorem Halts.globals {invoker : Option String} {wait : Wait} {mid : Workspace}
    (halts : Halts invoker ws wait mid) : mid.globals = ws.globals := by
  cases halts with
  | time entropy deadline => rfl
  | batch ok =>
    obtain ⟨-, scripts, e, -, -, -, eq⟩ := Workspace.startBatch_ok ok
    rw [eq]
    rfl
  | input entropy => rfl

/-- After a wait nothing is deleted. -/
theorem Resumes.grown {wait : Wait} {later : Workspace}
    (resumes : Resumes call wait later e last log) : Grown call.owner later e.owner last := by
  obtain ⟨globals, locals⟩ := resumes.close.revises.grown resumes.keeps
  rw [globals_resume] at globals
  exact ⟨globals, locals⟩

end

end Line

/-! ## Runs -/

namespace Run

variable {α β : Type} {D : α → Workspace → Prop} {G : Workspace → α → Workspace → Prop}
  {ws : Workspace} {run : Run α}

/-- The run is over at once, with `D`; or it waits once, having changed no global variable, and what
it does after that is `G`. -/
inductive Settles (D : α → Workspace → Prop) (G : Workspace → α → Workspace → Prop)
    (ws : Workspace) : Run α → Prop where
  | done {value : α} {last : Workspace} (final : D value last) : Settles D G ws (.done value last)
  | await {wait : Wait} {mid : Workspace} {next : Workspace → Run α}
      (here : mid.globals = ws.globals)
      (rest : ∀ later, ∃ value last, next later = .done value last ∧ G later value last) :
      Settles D G ws (.await wait mid next)
  | endless : Settles D G ws .endless

theorem Settles.of_globals_eq {start : Workspace} (same : start.globals = ws.globals)
    (h : run.Settles D G start) : run.Settles D G ws := by
  cases h with
  | done ended => exact .done ended
  | await here rest => exact .await (here.trans same) rest
  | endless => exact .endless

/-- Something that is done with the end of the run. -/
theorem Settles.bind {D' : β → Workspace → Prop} {G' : Workspace → β → Workspace → Prop}
    {f : α → Workspace → β} {g : α → Workspace → Workspace} (h : run.Settles D G ws)
    (final : ∀ value last, D value last → D' (f value last) (g value last))
    (rest : ∀ later value last, G later value last → G' later (f value last) (g value last)) :
    (run.bind fun value last => .done (f value last) (g value last)).Settles D' G' ws := by
  cases h with
  | done ended => exact .done (final _ _ ended)
  | await here after =>
    refine .await here fun later => ?_
    obtain ⟨value, last, eq, ended⟩ := after later
    refine ⟨_, _, ?_, rest later value last ended⟩
    rw [eq]
    rfl
  | endless => exact .endless

/-- What holds of the value that a run ends with. -/
theorem Settles.of_finish {P : α → Prop} {found : List Workspace} {r : Finished α}
    (h : run.Settles D G ws) (ends : run.finish found = some r)
    (final : ∀ value last, D value last → P value)
    (rest : ∀ later value last, G later value last → P value) : P r.value := by
  cases h with
  | done ended =>
    cases ends
    exact final _ _ ended
  | await _ goesOn =>
    cases found with
    | nil => cases ends
    | cons later found =>
      obtain ⟨value, last, eq, ended⟩ := goesOn later
      rw [finish, eq] at ends
      cases ends
      exact rest later value last ended
  | endless => cases ends

/-- Nobody else has given a global variable another kind while the run waited. -/
def Undisturbed (run : Run α) (ws : Workspace) (found : List Workspace) (name : String) : Prop :=
  (run.legs ws found).IsChain fun before after =>
    after.1.globals.kind? name = before.2.globals.kind? name

/-- From its beginning to its end the run leaves a global variable of the kind that it has, unless
somebody else has changed it. -/
theorem Settles.kind_eq {found : List Workspace} {r : Finished α} {name : String}
    {kind kind' : Kind} (h : run.Settles D G ws)
    (final : ∀ value last, D value last → ws.globals.Agrees last.globals)
    (rest : ∀ later value last, G later value last → later.globals.Grows last.globals)
    (ends : run.finish found = some r) (undisturbed : run.Undisturbed ws found name)
    (before : ws.globals.kind? name = some kind) (after : r.last.globals.kind? name = some kind') :
    kind' = kind := by
  cases h with
  | done ended =>
    cases ends
    exact final _ _ ended name kind kind' before after
  | await here goesOn =>
    cases found with
    | nil => cases ends
    | cons later found =>
      obtain ⟨value, last, eq, ended⟩ := goesOn later
      rw [finish, eq] at ends
      cases ends
      simp only [Undisturbed, legs, eq, List.isChain_cons_cons] at undisturbed
      rw [← here, ← undisturbed.1] at before
      exact (rest later value last ended).agrees name kind kind' before after
  | endless => cases ends

end Run

namespace Line

theorem Account.settles {call : Call} {ws : Workspace} {run : Run Ended} {book : Book Ended}
    (account : Account call ws run book) :
    run.Settles (fun e last => Revises call.owner ws (book []).entries e.owner last)
      (fun later e last => Grown call.owner later e.owner last) ws := by
  cases account with
  | endless => exact .endless
  | closes booked close =>
    rw [booked.run_eq]
    refine .done ?_
    rw [booked.book_eq]
    exact close.revises
  | passes halts booked resumes =>
    rw [booked.run_eq]
    have grown := resumes.grown
    refine .done (Grown.revises ⟨?_, grown.locals⟩ _)
    rw [← halts.globals]
    exact grown.globals
  | waits halts rest =>
    refine .await halts.globals fun later => ?_
    obtain ⟨e, last, log, booked, resumes⟩ := rest later
    exact ⟨e, last, booked.run_eq, resumes.grown⟩

/-- What a line does to the variables, and what the rest of it does after a wait. -/
theorem evaluate_settles (depth : Nat) (line : String) (owner : Option Instance) {ws : Workspace}
    (standard : ws.Standard) :
    (evaluate depth {} line owner [] ws).Settles
      (fun e last =>
        Revises owner ws (journal depth ⟨{}, line, owner, []⟩ ws []).entries e.owner last)
      (fun later e last => Grown owner later e.owner last) ws :=
  (evaluate_account depth ⟨{}, line, owner, []⟩ ws standard).settles

end Line

/-! ## Ticks and lines of the host -/

/-- The journal of a line of the host before it waits. -/
def Line.requestJournal (text : String) (ws : Workspace) : Journal Ended :=
  journal (depthBound text 0) ⟨{}, text, none, []⟩ ws.beginRequest []

/-- What a line of the host does to the variables. -/
theorem Line.runRequest_settles (text : String) {ws : Workspace} (standard : ws.Standard) :
    (runRequest text ws).Settles
      (fun _ last =>
        ws.globals.Becomes (Deletes none (requestJournal text ws).entries .globals) last.globals)
      (fun later _ last => later.globals.Grows last.globals) ws := by
  have begun : ws.beginRequest.Standard := ⟨standard.registry_eq⟩
  have settles := evaluate_settles (depthBound text 0) text none begun
  rw [← requestJournal] at settles
  have kept : ∀ last : Workspace, last.endRequest.globals = last.globals := by
    intro last
    unfold Workspace.endRequest
    dsimp only
    split <;> rfl
  rw [runRequest, runBare]
  -- The depth is a large number, which must not be computed.
  generalize evaluate (depthBound text 0) {} text none [] ws.beginRequest = run at settles ⊢
  generalize (requestJournal text ws).entries = log at settles ⊢
  have published : (run.bind fun e last => .done e.evaluation (last.publish e.transcript)).Settles
      (fun _ last => ws.globals.Becomes (Deletes none log .globals) last.globals)
      (fun later _ last => later.globals.Grows last.globals) ws.beginRequest :=
    settles.bind (fun _ _ revises => revises.globals) (fun _ _ _ grown => grown.globals)
  have same : ws.beginRequest.globals = ws.globals := rfl
  refine (published.of_globals_eq same).bind ?_ ?_
  · intro _ last becomes
    rw [kept]
    exact becomes
  · intro _ _ last grows
    rw [kept]
    exact grows

namespace Instance

variable {i : Instance} {ws last : Workspace} {ticked : Ticked}

/-- What the line that an instance is on leaves in its journal before it waits. -/
def tickEntries (i : Instance) (ws : Workspace) : List Entry :=
  (i.source[i.counter]?.map fun line => (i.lineJournal line ws []).entries).getD []

/-- What a tick does to the variables that deletes no other ones. -/
structure Revises (i : Instance) (deleted : Home → String → Prop) (ws : Workspace) (ticked : Ticked)
    (last : Workspace) : Prop where
  globals : ws.globals.Becomes (deleted .globals) last.globals
  locals : i.locals.Becomes (deleted (.locals i.generation)) ticked.inst.locals
  generation : ticked.inst.generation = i.generation

/-- What a tick does to them after a wait. -/
structure Grown (i : Instance) (ws : Workspace) (ticked : Ticked) (last : Workspace) : Prop where
  globals : ws.globals.Grows last.globals
  locals : i.locals.Grows ticked.inst.locals
  generation : ticked.inst.generation = i.generation

theorem Grown.revises (h : i.Grown ws ticked last) (deleted : Home → String → Prop) :
    i.Revises deleted ws ticked last :=
  ⟨.grows h.globals, .grows h.locals, h.generation⟩

theorem advance_locals (i : Instance) (evaluation : Evaluation) :
    (i.advance evaluation).inst.locals = i.locals := by
  unfold advance
  split
  · rfl
  · split
    · rfl
    · split <;> rfl

/-- With its end a tick leaves the variables where the line has left them. -/
theorem conclude_keeps {e : Line.Ended} {j : Instance} (owner : e.owner = some j) (ws : Workspace) :
    (i.conclude e ws).1.inst.locals = j.locals ∧
      (i.conclude e ws).1.inst.generation = j.generation ∧
      (i.conclude e ws).2.globals = ws.globals := by
  unfold conclude
  rw [owner, Option.getD_some]
  dsimp only
  split
  · exact ⟨advance_locals j _, congrArg Active.generation (advance_entry j _), rfl⟩
  · exact ⟨rfl, rfl, rfl⟩

/-- What a tick does to the variables, and what the rest of it does. -/
theorem tick_settles (i : Instance) (standard : ws.Standard) :
    (i.tick ws).Settles (i.Revises (Line.Deletes (some i) (i.tickEntries ws)) ws) i.Grown ws := by
  cases here : i.source[i.counter]? with
  | none =>
    simp only [tick, here]
    exact .done ⟨.grows (.refl _), .grows (.refl _), rfl⟩
  | some line =>
    have entries : i.tickEntries ws = (i.lineJournal line ws []).entries := by
      rw [tickEntries, here, Option.map_some, Option.getD_some]
    have settles := Line.evaluate_settles (Line.depthBound line i.extent) line (some i) standard
    rw [← lineJournal, ← entries] at settles
    simp only [tick, here]
    generalize Line.evaluate (Line.depthBound line i.extent) {} line (some i) [] ws = run
      at settles ⊢
    refine settles.bind ?_ ?_
    · intro e last revises
      obtain ⟨j, owner, same, becomes⟩ := revises.locals i rfl
      obtain ⟨locals, generation, globals⟩ := conclude_keeps (i := i) owner last
      have mine : j.generation = i.generation :=
        congrArg Active.generation (entry_eq_of_fixed_eq same)
      refine ⟨?_, ?_, generation.trans mine⟩
      · rw [globals]
        exact revises.globals
      · rw [locals]
        exact becomes
    · intro later e last grown
      obtain ⟨j, owner, same, more⟩ := grown.locals i rfl
      obtain ⟨locals, generation, globals⟩ := conclude_keeps (i := i) owner last
      have mine : j.generation = i.generation :=
        congrArg Active.generation (entry_eq_of_fixed_eq same)
      refine ⟨?_, ?_, generation.trans mine⟩
      · rw [globals]
        exact grown.globals
      · rw [locals]
        exact more

end Instance

end LineScript
