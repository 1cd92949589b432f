import LineScript.Proofs.Kernel.Lineage
import LineScript.Proofs.Kernel.Motion
import LineScript.Proofs.Line.Kinds

/-!
# A variable keeps its kind

The kinds of variables in a kernel, whatever lines and ticks follow each other and wherever they
wait. A kernel keeps variables for everybody and for each of its instances. With every move each of
these scopes grows or loses one name, and it loses a name only if a line or a tick deletes that
very variable (`Kernel.Revision`). So as long as a variable is not deleted it keeps its kind.

* `Workspace.Onward` is what happens to the instances that wait in the inbox.
* `Kernel.Typed` is what holds in every kernel that began without variables.
-/

namespace LineScript

/-! ## The inbox -/

namespace Workspace

variable {ws ws' ws'' : Workspace} {said : List Message}

/-- The commands stay, no generation is handed out again, and what is new in the inbox has a new
generation and no variables. -/
structure Onward (ws ws' : Workspace) : Prop where
  registry : ws'.registry = ws.registry
  generations : ws.scheduler.nextGeneration ≤ ws'.scheduler.nextGeneration
  inbox : ∀ i ∈ ws'.inbox,
    i ∈ ws.inbox ∨ ws.scheduler.nextGeneration ≤ i.generation ∧ i.locals = {}

theorem Onward.of_eq (registry : ws'.registry = ws.registry)
    (generations : ws'.scheduler.nextGeneration = ws.scheduler.nextGeneration)
    (inbox : ws'.inbox = ws.inbox) : ws.Onward ws' :=
  ⟨registry, Nat.le_of_eq generations.symm, fun _ mem => .inl (inbox ▸ mem)⟩

theorem Onward.refl (ws : Workspace) : ws.Onward ws :=
  .of_eq rfl rfl rfl

theorem Onward.trans (first : ws.Onward ws') (second : ws'.Onward ws'') : ws.Onward ws'' where
  registry := second.registry.trans first.registry
  generations := Nat.le_trans first.generations second.generations
  inbox := by
    intro i mem
    rcases second.inbox i mem with old | ⟨generation, empty⟩
    · exact first.inbox i old
    · exact .inr ⟨Nat.le_trans first.generations generation, empty⟩

theorem onward_start {invoker : Option String} {names : List String} {started : Started}
    (ok : ws.startBatch invoker names = .ok (started, ws')) : ws.Onward ws' := by
  obtain ⟨-, scripts, e, -, new, -, rfl⟩ := startBatch_ok ok
  refine ⟨rfl, ?_, ?_⟩
  · show ws.scheduler.nextGeneration ≤ e.scheduler.nextGeneration
    rw [new.nextGeneration]
    omega
  · intro i mem
    rcases List.mem_append.mp mem with old | added
    · exact .inl old
    · rw [new.instances] at added
      exact .inr ⟨(Scheduler.generation_of_mem_newInstances added).1,
        Scheduler.locals_of_mem_newInstances added⟩

theorem onward_touch (touch : Line.Touch ws ws') : ws.Onward ws' := by
  cases touch with
  | answer ctx r =>
    obtain ⟨globals, terminal, device, entropy, eq⟩ := ctx.answer_workspace ws r
    rw [eq]
    exact .of_eq rfl rfl rfl
  | ask => exact .of_eq rfl rfl rfl
  | read ticket => exact .of_eq rfl rfl rfl

theorem onward_effects {invoker : Option String} (effects : Line.Effects invoker ws ws') :
    ws.Onward ws' := by
  induction effects with
  | refl => exact .refl ws
  | tail _ effect ih =>
    cases effect with
    | touch touch => exact ih.trans (onward_touch touch)
    | start ok => exact ih.trans (onward_start ok)

theorem onward_endRequest (ws : Workspace) : ws.Onward ws.endRequest := by
  unfold endRequest
  dsimp only
  split <;> exact .of_eq rfl rfl rfl

theorem onward_finish (ws : Workspace) (ended : Instance) : ws.Onward (ws.finish ended) := by
  unfold Workspace.finish
  split <;> exact .of_eq rfl rfl rfl

/-- Nothing of this concerns variables. -/
theorem Handled.globals (h : ws.Handled said ws') : ws'.globals = ws.globals := by
  cases h with
  | start ok =>
    obtain ⟨-, scripts, e, -, -, -, rfl⟩ := startBatch_ok ok
    rfl
  | remain wait => cases wait <;> rfl
  | abandon wait => cases wait <;> rfl
  | discard wait =>
    unfold endRequest
    dsimp only
    split <;> cases wait <;> rfl
  | stop target => exact ws.stop_globals target
  | _ => rfl

theorem Handled.onward (h : ws.Handled said ws') : ws.Onward ws' := by
  have waived : ∀ wait : Wait, ws.Onward (wait.abandon ws) := by
    intro wait
    cases wait <;> exact .of_eq rfl rfl rfl
  cases h with
  | start ok => exact onward_start ok
  | stop target =>
    unfold Workspace.stop
    dsimp only
    split <;> exact .of_eq rfl rfl rfl
  | remain wait => cases wait <;> exact .of_eq rfl rfl rfl
  | abandon wait => exact waived wait
  | discard wait => exact (waived wait).trans (onward_endRequest _)
  | _ => exact .of_eq rfl rfl rfl

end Workspace

/-- A line of the host and the inbox. -/
theorem Line.Serves.onward {ws start : Workspace} {run : Run Evaluation} (begins : ws.Onward start)
    (serves : Line.Serves start run) : ws.Onward (run.left ws) := by
  cases serves with
  | done final =>
    obtain ⟨before, said, effects, rfl⟩ := final
    have published : before.Onward (before.publish said) := .of_eq rfl rfl rfl
    exact (begins.trans (Workspace.onward_effects effects)).trans
      (published.trans (Workspace.onward_endRequest _))
  | await here _ => exact begins.trans (Workspace.onward_effects here)
  | endless => exact .refl ws

/-! ## Jobs and lines -/

namespace Job

variable {job job' : Job} {ws : Workspace} {run : Run Ticked}

/-- The rest of a tick that waits deletes no variable. -/
def Grows (job : Job) : Prop :=
  ∀ s, job.phase = .waiting s →
    ∀ later, ∃ ticked last, s.next later = .done ticked last ∧ job.inst.Grown later ticked last

theorem grows_of_wait?_eq_none (idle : job.phase.wait? = none) : job.Grows := by
  intro s waiting
  rw [waiting] at idle
  cases idle

theorem Rests.grows (rests : job.Rests job') (grows : job.Grows) : job'.Grows := by
  rcases rests.phase with same | idle
  · intro s waiting
    rw [same] at waiting
    rw [rests.inst]
    exact grows s waiting
  · exact grows_of_wait?_eq_none idle

/-- What a job goes on with: it deletes a variable only if it begins a tick, with the line that it
is on. -/
theorem run?_settles (grows : job.Grows) (standard : ws.Standard)
    (goesOn : job.run? ws = some run) :
    ∃ deleted, run.Settles (job.inst.Revises deleted ws) job.inst.Grown ws ∧
      ∀ home name, deleted home name → job.phase = .due ∧
        Line.Deletes (some job.inst) (job.inst.tickEntries ws) home name := by
  obtain ⟨-, ⟨due, rfl⟩ | ⟨s, waiting, -, rfl⟩⟩ := run?_cases goesOn
  · exact ⟨_, job.inst.tick_settles standard, fun home name deletes => ⟨due, deletes⟩⟩
  · obtain ⟨ticked, last, eq, grown⟩ := grows s waiting ws
    rw [eq]
    exact ⟨fun _ _ => False, .done (grown.revises _), fun _ _ => False.elim⟩

theorem rise_grows (grows : job.Grows) : job.rise.Grows := by
  unfold rise
  split
  · exact grows_of_wait?_eq_none rfl
  · exact grows

/-- What a turn does to the variables of a job and to those of everybody. -/
structure Revised (job : Job) (deleted : Home → String → Prop) (ws : Workspace)
    (polled : Option Job × Workspace) : Prop where
  globals : ws.globals.Becomes (deleted .globals) polled.2.globals
  left : ∀ job', polled.1 = some job' → job'.Grows ∧ job'.inst.generation = job.inst.generation ∧
    job.inst.locals.Becomes (deleted (.locals job.inst.generation)) job'.inst.locals

theorem settle_revised {deleted : Home → String → Prop}
    (settles : run.Settles (job.inst.Revises deleted ws) job.inst.Grown ws) :
    job.Revised deleted ws (job.settle ws run) := by
  cases settles with
  | @done ticked last revises =>
    obtain ⟨i, outcome⟩ := ticked
    cases outcome with
    | running =>
      refine ⟨revises.globals, ?_⟩
      intro job' same
      cases same
      exact ⟨grows_of_wait?_eq_none rfl, revises.generation, revises.locals⟩
    | ended reason =>
      refine ⟨?_, nofun⟩
      show ws.globals.Becomes _ (last.finish i).globals
      rw [last.finish_globals]
      exact revises.globals
    | cancelled => exact ⟨revises.globals, nofun⟩
  | @await wait mid next here rest =>
    constructor
    · show ws.globals.Becomes _ mid.globals
      rw [here]
      exact .grows (.refl _)
    · intro job' same
      cases same
      refine ⟨?_, rfl, .grows (.refl _)⟩
      intro s waiting
      cases waiting
      exact rest
  | endless =>
    refine ⟨.grows (.refl _), ?_⟩
    intro job' same
    cases same
    exact ⟨grows_of_wait?_eq_none rfl, rfl, .grows (.refl _)⟩

/-- A tick and the inbox. -/
theorem settle_onward (ticks : job.inst.Ticks ws run) : ws.Onward (job.settle ws run).2 := by
  cases ticks with
  | @done _ last ticked final =>
    obtain ⟨before, effects, concludes⟩ := final
    obtain ⟨said, eq, -⟩ := concludes.ending.publishes
    have published : ws.Onward last := by
      rw [eq]
      exact (Workspace.onward_effects effects).trans (.of_eq rfl rfl rfl)
    obtain ⟨i, outcome⟩ := ticked
    cases outcome with
    | ended reason => exact published.trans (Workspace.onward_finish _ i)
    | running => exact published
    | cancelled => exact published
  | await here _ => exact Workspace.onward_effects here
  | endless => exact .refl ws

theorem run?_ticks (orderly : job.Orderly) (goesOn : job.run? ws = some run) :
    job.inst.Ticks ws run := by
  obtain ⟨-, ⟨-, rfl⟩ | ⟨s, waiting, -, rfl⟩⟩ := run?_cases goesOn
  · exact job.inst.tick_ticks ws
  · exact orderly s waiting ws

end Job

namespace LineState

variable {state : LineState} {ws : Workspace} {run : Run Evaluation}

/-- The rest of a line that waits deletes no variable. -/
def Grows : LineState → Prop
  | .suspended s => ∀ later, ∃ evaluation last, s.next later = .done evaluation last ∧
      later.globals.Grows last.globals
  | _ => True

theorem grows_of_ne (other : ∀ s, state ≠ .suspended s) : state.Grows := by
  cases state with
  | suspended s => exact absurd rfl (other s)
  | _ => trivial

/-- What a line goes on with: it deletes a variable only if it begins. -/
theorem run?_settles (grows : state.Grows) (standard : ws.Standard)
    (goesOn : state.run? ws = some run) :
    ∃ deleted, run.Settles (fun _ last => ws.globals.Becomes deleted last.globals)
      (fun later _ last => later.globals.Grows last.globals) ws ∧
      ∀ name, deleted name → ∃ text, state = .unstarted text ∧
        Line.Deletes none (Line.requestJournal text ws).entries .globals name := by
  obtain ⟨text, rfl, rfl⟩ | ⟨s, rfl, -, rfl⟩ := run?_cases goesOn
  · exact ⟨_, Line.runRequest_settles text standard, fun name deletes => ⟨text, rfl, deletes⟩⟩
  · obtain ⟨evaluation, last, eq, more⟩ := grows ws
    rw [eq]
    exact ⟨fun _ => False, .done (.grows more), fun _ => False.elim⟩

theorem run?_onward (orderly : state.Orderly) (goesOn : state.run? ws = some run) :
    ws.Onward (run.left ws) := by
  obtain ⟨text, rfl, rfl⟩ | ⟨s, rfl, -, rfl⟩ := run?_cases goesOn
  · have begun : ws.Onward ws.beginRequest := .of_eq rfl rfl rfl
    exact Line.Serves.onward begun (Line.runRequest_serves text ws)
  · exact Line.Serves.onward (.refl ws) (orderly ws)

end LineState

/-! ## Kernels -/

namespace Kernel

variable {k k' k'' : Kernel} {home : Home} {name : String}

/-- The instances that a kernel has, at work or not. -/
def instances (k : Kernel) : List Instance :=
  k.workspace.inbox ++ k.jobs.map (·.inst)

/-- The variables that a kernel keeps there; none if the instance is not there. -/
def scope? (k : Kernel) : Home → Option Scope
  | .globals => some k.workspace.globals
  | .locals generation => (k.instances.find? (·.generation == generation)).map (·.locals)

theorem scope?_globals (k : Kernel) : k.scope? .globals = some k.workspace.globals :=
  rfl

/-- The move deletes a variable: a line of the host or a tick begins with it, and the command is the
one for variables of that kind. -/
inductive Deletes (k : Kernel) (home : Home) (name : String) : Kernel → Prop where
  | line {id : Nat} {text : String} (begins : k.line? id = some (.unstarted text))
      (deletes : Line.Deletes none (Line.requestJournal text k.workspace).entries home name) :
      Deletes k home name (k.pollLine id)
  | tick {generation : Nat} {job : Job} (found : k.job? generation = some job)
      (begins : job.phase = .due) (current : k.workspace.isCurrent job.inst = true)
      (deletes : Line.Deletes (some job.inst) (job.inst.tickEntries k.workspace) home name) :
      Deletes k home name (k.pollJob generation)

/-- What a move does to the variables. -/
structure Revision (k k' : Kernel) : Prop where
  onward : k.workspace.Onward k'.workspace
  globals : k.workspace.globals.Becomes (k.Deletes .globals · k') k'.workspace.globals
  jobs : ∀ job' ∈ k'.jobs, job'.Grows ∧ ∃ i ∈ k.instances, job'.inst.generation = i.generation ∧
    i.locals.Becomes (k.Deletes (.locals i.generation) · k') job'.inst.locals
  lines : ∀ line ∈ k'.lines, line.state.Grows

/-- The variables of a kernel are in order: the names are such that variables may have them, and
whoever waits deletes nothing any more. -/
structure Typed (k : Kernel) : Prop where
  driven : k.Driven
  standard : k.workspace.Standard
  globals : k.workspace.globals.Named
  locals : ∀ i ∈ k.instances, i.locals.Named
  jobs : ∀ job ∈ k.jobs, job.Grows
  lines : ∀ line ∈ k.lines, line.state.Grows

theorem Driven.jobs_orderly (h : k.Driven) : ∀ job ∈ k.jobs, job.Orderly := by
  obtain ⟨_, _, _, _, follows⟩ := h
  exact follows.jobs

/-- A job of before with its variables. -/
theorem Typed.kept (typed : k.Typed) {job : Job} (mem : job ∈ k.jobs) :
    job.Grows ∧ ∃ i ∈ k.instances, job.inst.generation = i.generation ∧
      i.locals.Becomes (k.Deletes (.locals i.generation) · k') job.inst.locals :=
  ⟨typed.jobs job mem, job.inst, List.mem_append_right _ (List.mem_map_of_mem mem), rfl,
    .grows (.refl _)⟩

/-- A move with which nobody goes on leaves the variables as they are. -/
theorem Typed.revision_of_same (typed : k.Typed) (onward : k.workspace.Onward k'.workspace)
    (globals : k'.workspace.globals = k.workspace.globals) (jobs : k'.jobs = k.jobs)
    (lines : k.LinesRest k') : k.Revision k' where
  onward := onward
  globals := by
    rw [globals]
    exact .grows (.refl _)
  jobs := by
    intro job mem
    rw [jobs] at mem
    exact typed.kept mem
  lines := by
    intro line mem
    rcases lines.waits line mem with old | other
    · exact typed.lines line old
    · exact LineState.grows_of_ne other

theorem Typed.revision_line (typed : k.Typed) {id : Nat} {state : LineState} {run : Run Evaluation}
    (found : k.line? id = some state) (goesOn : state.run? k.workspace = some run) :
    k.Revision (k.settleLine id run) := by
  obtain ⟨line, mem, here⟩ := mem_of_line? found
  have grows := typed.lines line mem
  have orderly := typed.driven.lines line mem
  rw [here] at grows orderly
  obtain ⟨deleted, settles, only⟩ := LineState.run?_settles grows typed.standard goesOn
  refine ⟨?_, ?_, ?_, ?_⟩
  · rw [settleLine_workspace]
    exact LineState.run?_onward orderly goesOn
  · have becomes : k.workspace.globals.Becomes deleted (run.left k.workspace).globals := by
      cases settles with
      | done becomes => exact becomes
      | @await _ mid _ same _ =>
        show k.workspace.globals.Becomes deleted mid.globals
        rw [same]
        exact .grows (.refl _)
      | endless => exact .grows (.refl _)
    rw [settleLine_workspace]
    apply becomes.mono
    intro name gone
    obtain ⟨text, begins, deletes⟩ := only name gone
    rw [← pollLine_of_run? found goesOn]
    rw [begins] at found
    exact .line found deletes
  · intro job mem
    rw [settleLine_jobs] at mem
    exact typed.kept mem
  · intro other mem
    rcases mem_settleLine mem with ⟨old, -⟩ | ⟨-, state⟩
    · exact typed.lines other old
    · rw [state]
      cases settles with
      | await _ rest => exact rest
      | done _ => trivial
      | endless => trivial

theorem Typed.revision_job (typed : k.Typed) {generation : Nat} {job : Job}
    {polled : Option Job × Workspace} {deleted : Home → String → Prop}
    (found : k.job? generation = some job) (onward : k.workspace.Onward polled.2)
    (revised : job.Revised deleted k.workspace polled)
    (only : ∀ home name, deleted home name →
      k.Deletes home name (k.settleJob generation polled)) :
    k.Revision (k.settleJob generation polled) where
  onward := onward
  globals := revised.globals.mono (only .globals)
  jobs := by
    intro job' mem
    rcases List.mem_append.mp mem with old | new
    · exact typed.kept (List.mem_of_mem_filter old)
    · obtain ⟨grows, same, becomes⟩ := revised.left job' (Option.mem_toList.mp new)
      have mine := List.mem_of_find?_eq_some found
      exact ⟨grows, job.inst, List.mem_append_right _ (List.mem_map_of_mem mine), same,
        becomes.mono (only _)⟩
  lines := typed.lines

/-- What any move does to the variables. -/
theorem Typed.revision (typed : k.Typed) (motion : k.Motion k') : k.Revision k' := by
  cases motion with
  | host handled jobs lines =>
    exact typed.revision_of_same handled.onward handled.globals jobs lines
  | drain workspace jobs lines =>
    apply typed.revision_of_same ?_ ?_ jobs (.of_eq lines)
    · rw [workspace]
      exact .of_eq rfl rfl rfl
    · rw [workspace]
      rfl
  | line found goesOn => exact typed.revision_line found goesOn
  | @job generation job run found goesOn =>
    have mem := List.mem_of_find?_eq_some found
    have orderly := typed.driven.jobs_orderly job mem
    obtain ⟨deleted, settles, only⟩ :=
      Job.run?_settles (typed.jobs job mem) typed.standard goesOn
    apply typed.revision_job found (Job.settle_onward (Job.run?_ticks orderly goesOn))
      (Job.settle_revised settles)
    intro home name gone
    obtain ⟨begins, deletes⟩ := only home name gone
    rw [← pollJob_of_run? found goesOn]
    exact .tick found begins (Job.run?_cases goesOn).1 deletes
  | @rest generation job left ws found _ handled rests =>
    have mem := List.mem_of_find?_eq_some found
    have revised : job.Revised (fun _ _ => False) k.workspace (left, ws) := by
      constructor
      · rw [handled.globals]
        exact .grows (.refl _)
      · intro job' same
        have rests := rests job' same
        rw [rests.inst]
        exact ⟨rests.grows (typed.jobs job mem), rfl, .grows (.refl _)⟩
    exact typed.revision_job found handled.onward revised fun _ _ => False.elim
  | receive =>
    constructor
    · rw [receive_workspace]
      exact ⟨rfl, Nat.le_refl _, by simp⟩
    · rw [receive_workspace]
      exact .grows (.refl _)
    · intro job' mem
      rcases mem_receive_jobs.mp mem with old | ⟨i, waits, rfl⟩
      · exact typed.kept old
      · exact ⟨Job.grows_of_wait?_eq_none rfl, i, List.mem_append_left _ waits, rfl,
          .grows (.refl _)⟩
    · rw [receive_lines]
      exact typed.lines
  | beginRound =>
    constructor
    · rw [beginRound_workspace]
      exact .refl _
    · rw [beginRound_workspace]
      exact .grows (.refl _)
    · intro job' mem
      obtain ⟨job, old, rfl⟩ := mem_beginRound_jobs.mp mem
      obtain ⟨grows, i, mem, same, becomes⟩ := typed.kept old
      rw [Job.rise_inst]
      exact ⟨Job.rise_grows grows, i, mem, same, becomes⟩
    · rw [beginRound_lines]
      exact typed.lines

/-- An instance is one of before, with what has become of its variables, or it is new. -/
theorem Revision.instances (revision : k.Revision k') {i' : Instance} (mem : i' ∈ k'.instances) :
    (∃ i ∈ k.instances, i'.generation = i.generation ∧
        i.locals.Becomes (k.Deletes (.locals i.generation) · k') i'.locals) ∨
      k.workspace.scheduler.nextGeneration ≤ i'.generation ∧ i'.locals = {} := by
  rcases List.mem_append.mp mem with waits | works
  · rcases revision.onward.inbox i' waits with old | new
    · exact .inl ⟨i', List.mem_append_left _ old, rfl, .grows (.refl _)⟩
    · exact .inr new
  · obtain ⟨job', here, rfl⟩ := List.mem_map.mp works
    exact .inl (revision.jobs job' here).2

/-! ### One move, and any number of them -/

theorem Fresh.typed (fresh : k.Fresh) (standard : k.workspace.Standard)
    (empty : k.workspace.globals = {}) : k.Typed where
  driven := fresh.driven
  standard := standard
  globals := by
    rw [empty]
    exact Scope.named_empty
  locals := by simp [instances, fresh.inbox, fresh.jobs]
  jobs := by simp [fresh.jobs]
  lines := by simp [fresh.lines]

theorem Typed.move (typed : k.Typed) (move : k.Move k') : k'.Typed := by
  have revision := typed.revision move.motion
  refine ⟨typed.driven.move move, ⟨?_⟩, revision.globals.named typed.globals, ?_,
    fun job mem => (revision.jobs job mem).1, revision.lines⟩
  · rw [revision.onward.registry]
    exact typed.standard.registry_eq
  · intro i' mem
    rcases revision.instances mem with ⟨i, old, -, becomes⟩ | ⟨-, empty⟩
    · exact becomes.named (typed.locals i old)
    · rw [empty]
      exact Scope.named_empty

theorem Typed.moves (typed : k.Typed) (moves : k.Moves k') : k'.Typed := by
  induction moves with
  | refl => exact typed
  | tail _ move ih => exact ih.move move

theorem Typed.nextGeneration_le (typed : k.Typed) (moves : k.Moves k') :
    k.workspace.scheduler.nextGeneration ≤ k'.workspace.scheduler.nextGeneration := by
  induction moves with
  | refl => exact Nat.le_refl _
  | tail moves move ih =>
    have revision := (typed.moves moves).revision move.motion
    exact Nat.le_trans ih revision.onward.generations

/-! ### The scopes -/

theorem mem_of_scope? {generation : Nat} {scope : Scope}
    (found : k.scope? (.locals generation) = some scope) :
    ∃ i ∈ k.instances, i.generation = generation ∧ i.locals = scope := by
  obtain ⟨i, found, locals⟩ := Option.map_eq_some_iff.mp found
  exact ⟨i, List.mem_of_find?_eq_some found, by simpa using List.find?_some found, locals⟩

/-- The instances of a kernel have generations of their own. -/
theorem Typed.eq_of_generation_eq (typed : k.Typed) {i j : Instance} (hi : i ∈ k.instances)
    (hj : j ∈ k.instances) (same : i.generation = j.generation) : i = j := by
  have distinct := typed.driven.covered.nodup
  rw [List.map_map] at distinct
  exact List.inj_on_of_nodup_map distinct hi hj same

theorem Typed.generation_lt (typed : k.Typed) {i : Instance} (mem : i ∈ k.instances) :
    i.generation < k.workspace.scheduler.nextGeneration :=
  typed.driven.covered.generation_lt i.entry (List.mem_map_of_mem mem)

theorem Typed.named (typed : k.Typed) {scope : Scope} (found : k.scope? home = some scope) :
    scope.Named := by
  cases home with
  | globals =>
    cases found
    exact typed.globals
  | locals generation =>
    obtain ⟨i, mem, -, rfl⟩ := mem_of_scope? found
    exact typed.locals i mem

/-- An instance that is there after a move and was handed out before was there before. -/
theorem Typed.scope?_before (typed : k.Typed) (move : k.Move k') {scope' : Scope}
    (handedOut : ∀ generation, home = .locals generation →
      generation < k.workspace.scheduler.nextGeneration)
    (after : k'.scope? home = some scope') :
    ∃ scope, k.scope? home = some scope ∧ scope.Becomes (k.Deletes home · k') scope' := by
  have revision := typed.revision move.motion
  cases home with
  | globals =>
    cases after
    exact ⟨_, rfl, revision.globals⟩
  | locals generation =>
    obtain ⟨i', mem', here, rfl⟩ := mem_of_scope? after
    rcases revision.instances mem' with ⟨i, mem, same, becomes⟩ | ⟨new, -⟩
    · have mine : i.generation = generation := same.symm.trans here
      rw [mine] at becomes
      cases found : k.instances.find? (·.generation == generation) with
      | none =>
        have other := List.find?_eq_none.mp found i mem
        simp [mine] at other
      | some j =>
        -- Only one instance has the generation.
        have other : j.generation = generation := by simpa using List.find?_some found
        have eq := typed.eq_of_generation_eq (List.mem_of_find?_eq_some found) mem
          (other.trans mine.symm)
        rw [← eq] at becomes
        exact ⟨j.locals, by simp [scope?, found], becomes⟩
    · have old := handedOut generation rfl
      omega

theorem Typed.handedOut (typed : k.Typed) {scope : Scope} (before : k.scope? home = some scope) :
    ∀ generation, home = .locals generation →
      generation < k.workspace.scheduler.nextGeneration := by
  intro generation same
  subst same
  obtain ⟨i, mem, mine, -⟩ := mem_of_scope? before
  rw [← mine]
  exact typed.generation_lt mem

/-- With one move a scope grows or loses a name. -/
theorem Typed.becomes (typed : k.Typed) (move : k.Move k') {scope scope' : Scope}
    (before : k.scope? home = some scope) (after : k'.scope? home = some scope') :
    scope.Becomes (k.Deletes home · k') scope' := by
  obtain ⟨scope₀, found, becomes⟩ := typed.scope?_before move (typed.handedOut before) after
  rw [before] at found
  cases found
  exact becomes

/-- A variable that is not of its kind any more was deleted on the way. -/
theorem Typed.deletes_between (typed : k.Typed) (moves : k.Moves k') {scope scope' : Scope}
    {kind : Kind} (before : k.scope? home = some scope) (after : k'.scope? home = some scope')
    (known : scope.kind? name = some kind) (changed : scope'.kind? name ≠ some kind) :
    ∃ here there, k.Moves here ∧ here.Deletes home name there ∧ there.Moves k' := by
  induction moves generalizing scope' with
  | refl =>
    rw [before] at after
    cases after
    exact absurd known changed
  | @tail mid last moves move ih =>
    have typedMid := typed.moves moves
    have handedOut : ∀ generation, home = .locals generation →
        generation < mid.workspace.scheduler.nextGeneration := by
      intro generation same
      exact Nat.lt_of_lt_of_le (typed.handedOut before generation same)
        (typed.nextGeneration_le moves)
    obtain ⟨scope₁, found, becomes⟩ := typedMid.scope?_before move handedOut after
    by_cases still : scope₁.kind? name = some kind
    · exact ⟨mid, last, moves, becomes.deleted_of_ne still changed, .refl⟩
    · obtain ⟨here, there, first, deletes, rest⟩ := ih found still
      exact ⟨here, there, first, deletes, rest.tail move⟩

/-- In a kernel that began without variables, the variables for everybody and those of each instance
are in order, whatever lines and ticks have followed each other. No name is empty or begins with a
digit. A move leaves every variable of the kind that it has, and so does a tick and a line of the
host from its beginning to its end, if nobody else has changed the kind of a global variable in the
meantime. A variable that is not of its kind any more was deleted on the way, in this very scope. An
assignment that is refused changes nothing. -/
theorem variables_keep_their_kinds {k₀ k : Kernel} (fresh : k₀.Fresh)
    (standard : k₀.workspace.Standard) (empty : k₀.workspace.globals = {}) (moves : k₀.Moves k) :
    (∀ home scope, k.scope? home = some scope → ∀ name kind, scope.kind? name = some kind →
      name ≠ "" ∧ ∀ c, name.toList.head? = some c → c.isDigit = false) ∧
    (∀ k', k.Move k' → ∀ home scope scope', k.scope? home = some scope →
      k'.scope? home = some scope' → scope.Agrees scope') ∧
    (∀ i ∈ k.instances, ∀ found r, (i.tick k.workspace).finish found = some r →
      i.locals.Agrees r.value.inst.locals ∧
      ∀ name kind kind', (i.tick k.workspace).Undisturbed k.workspace found name →
        k.workspace.globals.kind? name = some kind → r.last.globals.kind? name = some kind' →
        kind' = kind) ∧
    (∀ text found r, (Line.runRequest text k.workspace).finish found = some r →
      ∀ name kind kind', (Line.runRequest text k.workspace).Undisturbed k.workspace found name →
        k.workspace.globals.kind? name = some kind → r.last.globals.kind? name = some kind' →
        kind' = kind) ∧
    (∀ k', k.Moves k' → ∀ home scope scope' name kind, k.scope? home = some scope →
      k'.scope? home = some scope' → scope.kind? name = some kind →
      scope'.kind? name ≠ some kind →
      ∃ here there, k.Moves here ∧ here.Deletes home name there ∧ there.Moves k') ∧
    ∀ (ctx : Context) (ws : Workspace) (name : String) (value : Value) (e : AssignError),
      ((ctx.assign ws name value).1 = .error e → (ctx.assign ws name value).2 = (ctx, ws)) ∧
      ((ctx.update ws name value).1 = .error e → (ctx.update ws name value).2 = (ctx, ws)) ∧
      ((ctx.assignGlobal ws name value).1 = .error e →
        (ctx.assignGlobal ws name value).2 = (ctx, ws)) := by
  have typed := (fresh.typed standard empty).moves moves
  refine ⟨?_, ?_, ?_, ?_, ?_, ?_⟩
  · intro home scope found name kind known
    exact checkName_eq_ok_iff.mp (typed.named found name kind known)
  · intro k' move home scope scope' before after
    exact (typed.becomes move before after).agrees
  · intro i _ found r ends
    have settles := i.tick_settles typed.standard
    constructor
    · exact settles.of_finish ends (fun _ _ revises => revises.locals.agrees)
        (fun _ _ _ grown => grown.locals.agrees)
    · intro name kind kind' undisturbed before after
      exact settles.kind_eq (fun _ _ revises => revises.globals.agrees)
        (fun _ _ _ grown => grown.globals) ends undisturbed before after
  · intro text found r ends name kind kind' undisturbed before after
    exact (Line.runRequest_settles text typed.standard).kind_eq (fun _ _ becomes => becomes.agrees)
      (fun _ _ _ more => more) ends undisturbed before after
  · intro k' moves' home scope scope' name kind before after known changed
    exact typed.deletes_between moves' before after known changed
  · intro ctx ws name value e
    exact ⟨Context.assign_refused, Context.update_refused, Context.assignGlobal_refused⟩

theorem withParts_standard (config : Config) (store : Store) (device : Device) :
    (withParts config store device).workspace.Standard where
  registry_eq := by rw [withParts]

theorem withParts_eq (config : Config) (store : Store) (device : Device) :
    withParts config store device = withParts config store device (.catalogue builtins) := by
  rw [Registry.standard_eq_catalogue]

/-- The host runs a line that does not wait. -/
def give (k : Kernel) (text : String) : Kernel :=
  (k.submit text).2.pollLine (k.submit text).1

theorem give_moves (k : Kernel) (text : String) : k.Moves (k.give text) :=
  .tail (.single (.submit text)) (.pollLine _)

/-- A kernel with a list. -/
def page : Kernel :=
  (withParts .isolated .empty .recording).give "listcreate x"

/-- The list has made room for a text. -/
def nextPage : Kernel :=
  (page.give "delvar x").give "var x 1"

/-- A list becomes a text: on the way it was deleted. -/
theorem page_deletes_between :
    (page.workspace.globals.kind? "x" = some .list ∧
        nextPage.workspace.globals.kind? "x" = some .text) ∧
      ∃ here there, page.Moves here ∧ here.Deletes .globals "x" there ∧ there.Moves nextPage := by
  have kinds : page.workspace.globals.kind? "x" = some .list ∧
      nextPage.workspace.globals.kind? "x" = some .text := by
    rw [nextPage, page, withParts_eq]
    decide +kernel
  have first : (withParts .isolated .empty .recording).Moves page := give_moves _ "listcreate x"
  have moves : page.Moves nextPage :=
    (page.give_moves "delvar x").trans ((page.give "delvar x").give_moves "var x 1")
  obtain ⟨-, -, -, -, deleted, -⟩ :=
    variables_keep_their_kinds (withParts_fresh ..) (withParts_standard ..) rfl first
  have changed : nextPage.workspace.globals.kind? "x" ≠ some .list := by
    rw [kinds.2]
    decide
  exact ⟨kinds, deleted nextPage moves .globals page.workspace.globals
    nextPage.workspace.globals "x" .list page.scope?_globals nextPage.scope?_globals kinds.1
    changed⟩

/-- A kernel without variables, with a script that puts a text in the place of a variable. -/
def rewriter : Kernel :=
  withParts .isolated (.memory ⟨[("s", "delglob x\nglob x 1")]⟩) .recording

/-- The kernel has got a list. -/
def rewritable : Kernel :=
  rewriter.give "listcreate x"

/-- From the beginning of a line to its end a variable need not keep its kind. While the line waits
for the script that it has started, the script deletes the list and makes a text of it. -/
theorem kind_changes_while_line_waits :
    (rewriter.Fresh ∧ rewriter.workspace.Standard ∧ rewriter.workspace.globals = {}) ∧
      rewriter.Moves rewritable ∧ rewritable.Moves (rewritable.run ⟨1000, 10⟩ "run s").2 ∧
      rewritable.workspace.globals.kind? "x" = some .list ∧
      (rewritable.run ⟨1000, 10⟩ "run s").1 = some {} ∧
      (rewritable.run ⟨1000, 10⟩ "run s").2.workspace.globals.kind? "x" = some .text := by
  refine ⟨⟨withParts_fresh .., withParts_standard .., rfl⟩, give_moves _ _, run_moves _ _ _, ?_⟩
  rw [rewritable, rewriter, withParts_eq]
  decide +kernel

end Kernel

end LineScript
