import LineScript.Proofs.Kernel.Kinds
import LineScript.Proofs.Line.Additions

/-!
# Nothing that is added to a list is lost

Lines of the host and scripts add to a global list, in whatever order they take their turns. A line
has read the list and written it back when its turn is over, and after a wait it leaves all lists
alone. So the list is in the end what it was in the beginning, followed by all that was added, each
value once and those of each line and script in the order in which it has added them.

* `Kernel.Begins` is a move with which a line begins, of the host or of a script, with its journal.
* `Kernel.Gathers` is any number of moves, with what each party has added to a list on the way.
-/

namespace LineScript

/-! ## Whoever waits -/

/-- What is left to do after the wait leaves all global lists as they are. -/
def Suspended.LeavesLists {α : Type} (s : Suspended α) : Prop :=
  ∀ later, ∃ value last, s.next later = .done value last ∧
    later.globals.KeepsLists last.globals

namespace Run

variable {α : Type} {owner : Option Instance} {ws : Workspace} {log : List Entry} {run : Run α}

/-- The same of a run that may come to a wait. -/
def LeavesLists (run : Run α) : Prop :=
  ∀ wait mid next, run = .await wait mid next → Suspended.LeavesLists ⟨wait, next⟩

theorem leavesLists_done (value : α) (ws : Workspace) : (Run.done value ws).LeavesLists := by
  intro wait mid next same
  cases same

theorem Tallies.leavesLists (h : run.Tallies owner ws log) : run.LeavesLists := by
  rintro wait mid next rfl
  cases h.settles with
  | await _ rest => exact rest

/-- Where the run is left for now. -/
theorem Tallies.left (h : run.Tallies owner ws log) : Line.Tallied owner ws log (run.left ws) := by
  obtain ⟨settles, unfinished⟩ := h
  cases settles with
  | done tallied => exact tallied
  | await here _ =>
    refine Line.tallied_of_keepsLists (.of_eq here) (unfinished ?_)
    intro value last same
    cases same
  | endless =>
    refine Line.tallied_of_keepsLists (.refl _) (unfinished ?_)
    intro value last same
    cases same

end Run

namespace Job

variable {job job' : Job} {ws : Workspace} {run : Run Ticked}

def LeavesLists (job : Job) : Prop :=
  ∀ s, job.phase = .waiting s → s.LeavesLists

theorem leavesLists_of_wait?_eq_none (idle : job.phase.wait? = none) : job.LeavesLists := by
  intro s waiting
  rw [waiting] at idle
  cases idle

theorem Rests.leavesLists (rests : job.Rests job') (leaves : job.LeavesLists) :
    job'.LeavesLists := by
  rcases rests.phase with same | idle
  · intro s waiting
    rw [same] at waiting
    exact leaves s waiting
  · exact leavesLists_of_wait?_eq_none idle

theorem rise_leavesLists (leaves : job.LeavesLists) : job.rise.LeavesLists := by
  unfold rise
  split
  · exact leavesLists_of_wait?_eq_none rfl
  · exact leaves

/-- What a job goes on with leaves the global lists alone once it has waited. -/
theorem run?_leavesLists (leaves : job.LeavesLists) (standard : ws.Standard)
    (goesOn : job.run? ws = some run) : run.LeavesLists := by
  obtain ⟨-, ⟨-, rfl⟩ | ⟨s, waiting, -, rfl⟩⟩ := run?_cases goesOn
  · exact (job.inst.tick_tallies standard).leavesLists
  · obtain ⟨ticked, last, eq, -⟩ := leaves s waiting ws
    rw [eq]
    exact Run.leavesLists_done ticked last

/-- A job that does not begin a line leaves them alone at once. -/
theorem run?_keepsLists (leaves : job.LeavesLists) (goesOn : job.run? ws = some run)
    (begun : job.phase = .due → ∀ text, job.inst.source[job.inst.counter]? ≠ some text) :
    ws.globals.KeepsLists (run.left ws).globals := by
  obtain ⟨-, ⟨due, rfl⟩ | ⟨s, waiting, -, rfl⟩⟩ := run?_cases goesOn
  · have none := Option.eq_none_iff_forall_ne_some.mpr (begun due)
    simp only [Instance.tick, none]
    exact .refl _
  · obtain ⟨ticked, last, eq, keeps⟩ := leaves s waiting ws
    rw [eq]
    exact keeps

theorem settle_globals (job : Job) (ws : Workspace) (run : Run Ticked) :
    (job.settle ws run).2.globals = (run.left ws).globals := by
  cases run with
  | done ticked last =>
    obtain ⟨i, outcome⟩ := ticked
    cases outcome with
    | running => rfl
    | ended reason => exact last.finish_globals i
    | cancelled => rfl
  | await wait mid next => rfl
  | endless => rfl

theorem settle_leavesLists (leaves : run.LeavesLists) (left : (job.settle ws run).1 = some job') :
    job'.LeavesLists := by
  cases run with
  | done ticked last =>
    obtain ⟨i, outcome⟩ := ticked
    cases outcome with
    | running =>
      cases left
      exact leavesLists_of_wait?_eq_none rfl
    | ended reason => cases left
    | cancelled => cases left
  | await wait mid next =>
    cases left
    rintro s ⟨⟩
    exact leaves wait mid next rfl
  | endless =>
    cases left
    exact leavesLists_of_wait?_eq_none rfl

end Job

namespace LineState

variable {state : LineState} {ws : Workspace} {run : Run Evaluation}

def LeavesLists (state : LineState) : Prop :=
  ∀ s, state = .suspended s → s.LeavesLists

theorem run?_leavesLists (leaves : state.LeavesLists) (standard : ws.Standard)
    (goesOn : state.run? ws = some run) : run.LeavesLists := by
  obtain ⟨text, rfl, rfl⟩ | ⟨s, rfl, -, rfl⟩ := run?_cases goesOn
  · exact (Line.runRequest_tallies text standard).leavesLists
  · obtain ⟨evaluation, last, eq, -⟩ := leaves s rfl ws
    rw [eq]
    exact Run.leavesLists_done evaluation last

theorem run?_keepsLists (leaves : state.LeavesLists) (goesOn : state.run? ws = some run)
    (begun : ∀ text, state ≠ .unstarted text) : ws.globals.KeepsLists (run.left ws).globals := by
  obtain ⟨text, rfl, -⟩ | ⟨s, rfl, -, rfl⟩ := run?_cases goesOn
  · exact absurd rfl (begun text)
  · obtain ⟨evaluation, last, eq, keeps⟩ := leaves s rfl ws
    rw [eq]
    exact keeps

theorem after_leavesLists (leaves : run.LeavesLists) : (LineState.after run).LeavesLists := by
  cases run with
  | await wait mid next =>
    rintro s ⟨⟩
    exact leaves wait mid next rfl
  | done evaluation last => nofun
  | endless => nofun

end LineState

namespace Kernel

variable {k k' : Kernel}

/-- Whoever waits leaves the global lists alone from then on. -/
structure LeavesLists (k : Kernel) : Prop where
  jobs : ∀ job ∈ k.jobs, job.LeavesLists
  lines : ∀ line ∈ k.lines, line.state.LeavesLists

theorem Fresh.leavesLists (fresh : k.Fresh) : k.LeavesLists where
  jobs := by simp [fresh.jobs]
  lines := by simp [fresh.lines]

theorem LeavesLists.linesRest (leaves : k.LeavesLists) (rest : k.LinesRest k') :
    ∀ line ∈ k'.lines, line.state.LeavesLists := by
  intro line mem
  rcases rest.waits line mem with old | other
  · exact leaves.lines line old
  · exact fun s waiting => absurd waiting (other s)

theorem LeavesLists.settleJob (leaves : k.LeavesLists) {generation : Nat}
    {polled : Option Job × Workspace} (left : ∀ job', polled.1 = some job' → job'.LeavesLists) :
    (k.settleJob generation polled).LeavesLists where
  jobs := by
    intro job mem
    rcases List.mem_append.mp mem with old | new
    · exact leaves.jobs job (List.mem_of_mem_filter old)
    · exact left job (Option.mem_toList.mp new)
  lines := leaves.lines

/-- Every move sees to that. -/
theorem LeavesLists.motion (leaves : k.LeavesLists) (standard : k.workspace.Standard)
    (motion : k.Motion k') : k'.LeavesLists := by
  cases motion with
  | host _ jobs lines => exact ⟨by rw [jobs]; exact leaves.jobs, leaves.linesRest lines⟩
  | drain _ jobs lines => exact ⟨by rw [jobs]; exact leaves.jobs, by rw [lines]; exact leaves.lines⟩
  | @line id state run found goesOn =>
    obtain ⟨line, mem, here⟩ := mem_of_line? found
    have mine := leaves.lines line mem
    rw [here] at mine
    refine ⟨by rw [settleLine_jobs]; exact leaves.jobs, ?_⟩
    intro other mem
    rcases mem_settleLine mem with ⟨old, -⟩ | ⟨-, state⟩
    · exact leaves.lines other old
    · rw [state]
      exact LineState.after_leavesLists (LineState.run?_leavesLists mine standard goesOn)
  | job found goesOn =>
    have mine := leaves.jobs _ (List.mem_of_find?_eq_some found)
    exact leaves.settleJob fun job' left =>
      Job.settle_leavesLists (Job.run?_leavesLists mine standard goesOn) left
  | rest found _ _ rests =>
    have mine := leaves.jobs _ (List.mem_of_find?_eq_some found)
    exact leaves.settleJob fun job' left => (rests job' left).leavesLists mine
  | receive =>
    refine ⟨?_, by rw [receive_lines]; exact leaves.lines⟩
    intro job mem
    rcases mem_receive_jobs.mp mem with old | ⟨i, -, rfl⟩
    · exact leaves.jobs job old
    · exact Job.leavesLists_of_wait?_eq_none rfl
  | beginRound =>
    refine ⟨?_, by rw [beginRound_lines]; exact leaves.lines⟩
    intro job mem
    obtain ⟨old, here, rfl⟩ := mem_beginRound_jobs.mp mem
    exact Job.rise_leavesLists (leaves.jobs old here)

theorem LeavesLists.moves (leaves : k.LeavesLists) (typed : k.Typed) (moves : k.Moves k') :
    k'.LeavesLists := by
  induction moves with
  | refl => exact leaves
  | tail moves move ih => exact ih.motion (typed.moves moves).standard move.motion

/-! ## Whoever begins -/

/-- A line begins with the move: one of the host, or the one that a script is on. The entries are
those of its journal up to its wait. -/
inductive Begins (k : Kernel) : Party → Option Instance → String → List Entry → Kernel → Prop where
  | line {id : Nat} {text : String} (unstarted : k.line? id = some (.unstarted text)) :
      Begins k (.line id) none text (Line.requestJournal text k.workspace).entries (k.pollLine id)
  | tick {generation : Nat} {job : Job} {text : String} (found : k.job? generation = some job)
      (due : job.phase = .due) (current : k.workspace.isCurrent job.inst = true)
      (here : job.inst.source[job.inst.counter]? = some text) :
      Begins k (.job generation) (some job.inst) text
        (job.inst.lineJournal text k.workspace []).entries (k.pollJob generation)

variable {party : Party} {owner : Option Instance} {text : String} {log : List Entry}

theorem Begins.move (begins : k.Begins party owner text log k') : k.Move k' := by
  cases begins with
  | line _ => exact .pollLine _
  | tick _ _ _ _ => exact .pollJob _

/-- It is the journal of the line, in a workspace with the same variables and commands. -/
theorem Begins.journal (begins : k.Begins party owner text log k') :
    ∃ ws depth, ws.globals = k.workspace.globals ∧ ws.registry = k.workspace.registry ∧
      log = (Line.journal (depth + 1) ⟨{}, text, owner, []⟩ ws []).entries := by
  cases begins with
  | line _ =>
    obtain ⟨depth, eq⟩ := Line.exists_depthBound_eq_succ text 0
    exact ⟨k.workspace.beginRequest, depth, rfl, rfl, by rw [Line.requestJournal, eq]⟩
  | @tick _ job _ _ _ _ _ =>
    obtain ⟨depth, eq⟩ := Line.exists_depthBound_eq_succ text job.inst.extent
    exact ⟨k.workspace, depth, rfl, rfl, by rw [Instance.lineJournal, eq]⟩

/-- What the line does to the global lists is told by its journal. -/
theorem Begins.tallied (begins : k.Begins party owner text log k')
    (standard : k.workspace.Standard) : Line.Tallied owner k.workspace log k'.workspace := by
  cases begins with
  | line unstarted =>
    have goesOn : (LineState.unstarted text).run? k.workspace =
        some (Line.runRequest text k.workspace) := rfl
    rw [pollLine_of_run? unstarted goesOn, settleLine_workspace]
    exact (Line.runRequest_tallies text standard).left
  | @tick generation job _ found due current here =>
    have goesOn : job.run? k.workspace = some (job.inst.tick k.workspace) := by
      simp [Job.run?, Job.isStale, current, due]
    have entries : job.inst.tickEntries k.workspace =
        (job.inst.lineJournal text k.workspace []).entries := by
      rw [Instance.tickEntries, here, Option.map_some, Option.getD_some]
    have left := (job.inst.tick_tallies standard).left
    rw [entries] at left
    rw [pollJob_of_run? found goesOn]
    intro list items found shown keeps
    show Scope.get? (job.settle k.workspace (job.inst.tick k.workspace)).2.globals list = _
    rw [Job.settle_globals]
    exact left list items found shown keeps

/-- A move with which no line begins leaves the global lists as they are. -/
theorem LeavesLists.keepsLists (leaves : k.LeavesLists) (move : k.Move k')
    (nobody : ∀ party owner text log, ¬ k.Begins party owner text log k') :
    k.workspace.globals.KeepsLists k'.workspace.globals := by
  cases move.motion with
  | host handled _ _ => exact .of_eq handled.globals
  | drain workspace _ _ =>
    rw [workspace]
    exact .refl _
  | @line id state run found goesOn =>
    obtain ⟨line, mem, here⟩ := mem_of_line? found
    have mine := leaves.lines line mem
    rw [here] at mine
    rw [settleLine_workspace]
    refine LineState.run?_keepsLists mine goesOn ?_
    rintro text rfl
    rw [← pollLine_of_run? found goesOn] at nobody
    exact nobody _ _ _ _ (.line found)
  | @job generation job run found goesOn =>
    have mine := leaves.jobs _ (List.mem_of_find?_eq_some found)
    show k.workspace.globals.KeepsLists (job.settle k.workspace run).2.globals
    rw [Job.settle_globals]
    refine Job.run?_keepsLists mine goesOn ?_
    intro due text here
    rw [← pollJob_of_run? found goesOn] at nobody
    exact nobody _ _ _ _ (.tick found due (Job.run?_cases goesOn).1 here)
  | rest _ _ handled _ => exact .of_eq handled.globals
  | receive =>
    rw [receive_workspace]
    exact .refl _
  | beginRound =>
    rw [beginRound_workspace]
    exact .refl _

/-! ## Any number of moves -/

/-- Moves one after the other, with what each party has added to a global list. Whoever begins a
line sees the list, for no variable of its own hides it, and nobody deletes the list or creates it
anew. -/
inductive Gathers (list : String) (k : Kernel) : (Party → List String) → Kernel → Prop where
  | nil : Gathers list k (fun _ => []) k
  | begins {own : Party → List String} {mid k' : Kernel} {party : Party} {owner : Option Instance}
      {text : String} {log : List Entry} (before : Gathers list k own mid)
      (begins : mid.Begins party owner text log k')
      (shown : ∀ i, owner = some i → i.locals.contains list = false)
      (keeps : ¬ Line.Resets owner log list) :
      Gathers list k (Function.update own party (own party ++ Line.additions list log)) k'
  | aside {own : Party → List String} {mid k' : Kernel} (before : Gathers list k own mid)
      (move : mid.Move k')
      (nobody : ∀ party owner text log, ¬ mid.Begins party owner text log k') :
      Gathers list k own k'

variable {list : String} {own : Party → List String}

theorem Gathers.moves (gathers : k.Gathers list own k') : k.Moves k' := by
  induction gathers with
  | nil => exact .refl
  | begins _ begins _ _ ih => exact ih.tail begins.move
  | aside _ move _ ih => exact ih.tail move

/-- Every move can be recorded, if it spares the list. -/
theorem Gathers.exists_next (gathers : k.Gathers list own k') {k'' : Kernel} (move : k'.Move k'')
    (spares : ∀ party owner text log, k'.Begins party owner text log k'' →
      (∀ i, owner = some i → i.locals.contains list = false) ∧ ¬ Line.Resets owner log list) :
    ∃ own', k.Gathers list own' k'' := by
  by_cases somebody : ∃ party owner text log, k'.Begins party owner text log k''
  · obtain ⟨party, owner, text, log, begins⟩ := somebody
    obtain ⟨shown, keeps⟩ := spares party owner text log begins
    exact ⟨_, gathers.begins begins shown keeps⟩
  · simp only [not_exists] at somebody
    exact ⟨own, gathers.aside move somebody⟩

/-- The values of a party in a list to which all parties have added. -/
def valuesOf (merged : List (Party × String)) (party : Party) : List String :=
  (merged.filter (·.1 = party)).map Prod.snd

theorem valuesOf_append_map (merged : List (Party × String)) (party : Party)
    (values : List String) :
    valuesOf (merged ++ values.map (party, ·)) =
      Function.update (valuesOf merged) party (valuesOf merged party ++ values) := by
  funext other
  by_cases same : other = party
  · subst same
    simp [valuesOf, List.filter_map, Function.comp_def]
  · simp [valuesOf, List.filter_map, Function.comp_def, same, Ne.symm same]

/-- The list is what it was, followed by what the parties have added, each in its order. -/
theorem Gathers.merges (gathers : k.Gathers list own k') (typed : k.Typed) (leaves : k.LeavesLists)
    {items : List String} (found : k.workspace.globals.get? list = some (.list items)) :
    ∃ merged : List (Party × String),
      k'.workspace.globals.get? list = some (.list (items ++ merged.map Prod.snd)) ∧
        valuesOf merged = own := by
  induction gathers with
  | nil => exact ⟨[], by simpa using found, rfl⟩
  | @begins own mid k' party owner text log before begins shown keeps ih =>
    obtain ⟨merged, here, mine⟩ := ih
    have tallied := begins.tallied (typed.moves before.moves).standard
    refine ⟨merged ++ (Line.additions list log).map (party, ·), ?_, ?_⟩
    · rw [tallied list _ here shown keeps]
      simp [Function.comp_def]
    · rw [valuesOf_append_map, mine]
  | aside before move nobody ih =>
    obtain ⟨merged, here, mine⟩ := ih
    have there := leaves.moves typed before.moves
    exact ⟨merged, there.keepsLists move nobody list _ here, mine⟩

/-! ## Lines that change lists and objects -/

/-- The owner of a line in this kernel: nobody, or one of its instances. -/
def Owns (k : Kernel) (owner : Option Instance) : Prop :=
  ∀ i, owner = some i → i ∈ k.instances

theorem Typed.line_named (typed : k.Typed) (owns : k.Owns owner) : Line.Named owner k.workspace :=
  ⟨typed.globals, fun i mine => typed.locals i (owns i mine)⟩

theorem Begins.owns (begins : k.Begins party owner text log k') : k.Owns owner := by
  cases begins with
  | line _ => nofun
  | tick found _ _ _ =>
    rintro i ⟨⟩
    exact List.mem_append_right _ (List.mem_map_of_mem (List.mem_of_find?_eq_some found))

/-- A line of `listadd` that begins adds its value, and that is all. -/
theorem Begins.adds (begins : k.Begins party owner text log k') (typed : k.Typed)
    {args items : List String} {item : String}
    (reading : Line.read k.workspace.registry text = .runs Builtin.listAdd args)
    (named : Line.word { line := text, owner } k.workspace 0 = list) (given : list ≠ "")
    (value : Line.tail { line := text, owner } k.workspace 1 = some item)
    (seen : Scope.visible? (owner.map (·.locals)) k.workspace.globals list = some (.list items)) :
    Line.additions list log = [item] ∧ ∀ other, ¬ Line.Resets owner log other := by
  have names := typed.line_named begins.owns
  obtain ⟨ws, depth, globals, registry, entries⟩ := begins.journal
  have lookup : ∀ ctx : Context, ctx.lookup ws = ctx.lookup k.workspace := by
    intro ctx
    rw [Context.lookup, Context.lookup, globals]
  rw [← registry] at reading
  let call : Line.Call := ⟨{}, text, owner, []⟩
  have replaces : Line.Replaces call (depth + 1) ws list (.list (items ++ [item])) := by
    refine Line.listAdd_replaces ⟨?_, names.locals⟩ reading ?_ given ?_ ?_
    · rw [globals]
      exact names.globals
    · rw [Line.word, lookup]
      exact named
    · rw [Line.tail, lookup]
      exact value
    · rw [globals]
      exact seen
  rw [entries]
  constructor
  · rw [← Line.additions_filter, replaces.granted]
    exact Line.additions_update list text item items
  · intro other resets
    have granted := resets.filter
    rw [replaces.granted] at granted
    exact Line.not_resets_update owner other list text _ granted

theorem visible?_of_shown {globals : Scope} (shown : ∀ i, owner = some i →
    i.locals.contains list = false) :
    Scope.visible? (owner.map (·.locals)) globals list = globals.get? list := by
  cases owner with
  | none => rfl
  | some i =>
    have hidden := shown i rfl
    rw [Scope.contains_eq, Option.isSome_eq_false_iff, Option.isNone_iff_eq_none] at hidden
    simp [Scope.visible?, hidden]

/-- So its value is counted in. -/
theorem Gathers.adds (gathers : k.Gathers list own k') (typed : k.Typed) (leaves : k.LeavesLists)
    {items args : List String} {item : String} {k'' : Kernel}
    (found : k.workspace.globals.get? list = some (.list items))
    (begins : k'.Begins party owner text log k'')
    (shown : ∀ i, owner = some i → i.locals.contains list = false)
    (reading : Line.read k'.workspace.registry text = .runs Builtin.listAdd args)
    (named : Line.word { line := text, owner } k'.workspace 0 = list) (given : list ≠ "")
    (value : Line.tail { line := text, owner } k'.workspace 1 = some item) :
    Line.additions list log = [item] ∧
      k.Gathers list (Function.update own party (own party ++ [item])) k'' := by
  obtain ⟨merged, here, -⟩ := gathers.merges typed leaves found
  have seen := (visible?_of_shown shown).trans here
  obtain ⟨added, keeps⟩ :=
    begins.adds (typed.moves gathers.moves) reading named given value seen
  refine ⟨added, ?_⟩
  have next := gathers.begins begins shown (keeps list)
  rwa [added] at next

/-- Updates hit what they have read, and none is lost. In a kernel that began without variables, at
any point, for lines of the host and of the instances of the kernel:

* a line of `listadd` that sees a list replaces that very binding by the list with the value added
  and changes no other variable, and one that sees none fails and changes nothing;
* so it is with `objset`, an object and a key;
* a global list that no variable of those who begin lines hides and that nobody deletes or creates
  anew is at last what it was at first, followed by every value that was added, once, and those of
  each line of the host and of each script are in the order in which it has added them;
* whenever a line of `listadd` begins on such a list, its value is added, and no other one;
* every other move that spares the list is counted in too. -/
theorem no_update_is_lost {k₀ k : Kernel} (fresh : k₀.Fresh) (standard : k₀.workspace.Standard)
    (empty : k₀.workspace.globals = {}) (moves : k₀.Moves k) :
    (∀ (call : Line.Call) (depth : Nat) (args : List String) (name item : String),
      k.Owns call.owner →
      Line.read k.workspace.registry call.line = .runs Builtin.listAdd args →
      Line.word call.context k.workspace 0 = name → name ≠ "" →
      Line.tail call.context k.workspace 1 = some item →
      (∀ items, Scope.visible? call.context.locals k.workspace.globals name = some (.list items) →
        Line.Replaces call (depth + 1) k.workspace name (.list (items ++ [item]))) ∧
      ((∀ items, Scope.visible? call.context.locals k.workspace.globals name ≠ some (.list items)) →
        Line.Fails call (depth + 1) k.workspace)) ∧
    (∀ (call : Line.Call) (depth : Nat) (args : List String) (name key : String),
      k.Owns call.owner →
      Line.read k.workspace.registry call.line = .runs Builtin.objSet args →
      Line.word call.context k.workspace 0 = name → name ≠ "" →
      Line.word call.context k.workspace 1 = key → key ≠ "" →
      (∀ fields,
        Scope.visible? call.context.locals k.workspace.globals name = some (.object fields) →
        Line.Replaces call (depth + 1) k.workspace name
          (.object (fields.insert key ((Line.tail call.context k.workspace 2).getD "")))) ∧
      ((∀ fields,
        Scope.visible? call.context.locals k.workspace.globals name ≠ some (.object fields)) →
        Line.Fails call (depth + 1) k.workspace)) ∧
    (∀ list own k' items, k.Gathers list own k' →
      k.workspace.globals.get? list = some (.list items) →
      ∃ merged : List (Party × String),
        k'.workspace.globals.get? list = some (.list (items ++ merged.map Prod.snd)) ∧
          ∀ party, (merged.filter (·.1 = party)).map Prod.snd = own party) ∧
    (∀ list own k' k'' party owner text log args items item,
      k.workspace.globals.get? list = some (.list items) → k.Gathers list own k' →
      k'.Begins party owner text log k'' →
      (∀ i, owner = some i → i.locals.contains list = false) →
      Line.read k'.workspace.registry text = .runs Builtin.listAdd args →
      Line.word { line := text, owner } k'.workspace 0 = list → list ≠ "" →
      Line.tail { line := text, owner } k'.workspace 1 = some item →
      Line.additions list log = [item] ∧
        k.Gathers list (Function.update own party (own party ++ [item])) k'') ∧
    ∀ list own k' k'', k.Gathers list own k' → k'.Move k'' →
      (∀ party owner text log, k'.Begins party owner text log k'' →
        (∀ i, owner = some i → i.locals.contains list = false) ∧ ¬ Line.Resets owner log list) →
      ∃ own', k.Gathers list own' k'' := by
  have began := fresh.typed standard empty
  have typed := began.moves moves
  have leaves := fresh.leavesLists.moves began moves
  refine ⟨?_, ?_, ?_, ?_, ?_⟩
  · intro call depth args name item owns reading named given value
    exact ⟨fun items seen => Line.listAdd_replaces (typed.line_named owns) reading named given value
        seen,
      Line.listAdd_fails reading named given value⟩
  · intro call depth args name key owns reading named given field keyed
    exact ⟨fun fields seen => Line.objSet_replaces (typed.line_named owns) reading named given field
        keyed seen,
      Line.objSet_fails reading named given field keyed⟩
  · intro list own k' items gathers found
    obtain ⟨merged, last, each⟩ := gathers.merges typed leaves found
    exact ⟨merged, last, congrFun each⟩
  · intro list own k' k'' party owner text log args items item found gathers begins shown reading
      named given value
    exact gathers.adds typed leaves found begins shown reading named given value
  · intro list own k' k'' gathers move spares
    exact gathers.exists_next move spares

/-! ## A board -/

/-- Nobody is about to begin a line. -/
def isCalm (k : Kernel) : Bool :=
  let started := k.lines.all fun line =>
    match line.state with
    | .unstarted _ => false
    | _ => true
  let rests := k.jobs.all fun job =>
    match job.phase with
    | .due => false
    | _ => true
  started && rests

theorem not_begins_of_isCalm (calm : k.isCalm = true) (party : Party) (owner : Option Instance)
    (text : String) (log : List Entry) : ¬ k.Begins party owner text log k' := by
  obtain ⟨started, rests⟩ := Bool.and_eq_true_iff.mp calm
  intro begins
  cases begins with
  | line unstarted =>
    obtain ⟨line, mem, here⟩ := mem_of_line? unstarted
    have other := List.all_eq_true.mp started line mem
    simp [here] at other
  | tick found due _ _ =>
    have other := List.all_eq_true.mp rests _ (List.mem_of_find?_eq_some found)
    simp [due] at other

/-- Start a script, and wait until its first line is due. -/
def launch (k : Kernel) (name : String) : Kernel :=
  match k.start [name] with
  | .ok (_, k) => (k.receive.pollJob 1).beginRound
  | .error _ => k

theorem launch_moves (k : Kernel) (name : String) : k.Moves (k.launch name) := by
  unfold launch
  split
  · rename_i started k ok
    have round : k.Moves (k.receive.pollJob 1).beginRound :=
      ((Relation.ReflTransGen.single .receive).tail (.pollJob 1)).tail .beginRound
    exact round.head (.start ok)
  · exact .refl

/-- A kernel that stores a script. -/
def blankBoard : Kernel :=
  .withParts .isolated (.memory ⟨[("a", "listadd x 1\nlistadd x 3")]⟩) .recording

/-- There is a list, and the first line of the script is due. -/
def openBoard : Kernel :=
  (blankBoard.give "listcreate x").launch "a"

/-- The host adds a value when the first line of the script has added one. -/
def busyBoard : Kernel :=
  ((openBoard.pollJob 1).submit "listadd x 2").2

/-- The second line of the script is due. -/
def fullBoard : Kernel :=
  ((busyBoard.pollLine 1).pollJob 1).beginRound

/-- There is a list of this name, and nothing is in it. -/
def isBlank (k : Kernel) (list : String) : Bool :=
  match k.workspace.globals.get? list with
  | some (.list []) => true
  | _ => false

theorem get?_of_isBlank (blank : k.isBlank list = true) :
    k.workspace.globals.get? list = some (.list []) := by
  unfold isBlank at blank
  split at blank
  · assumption
  · cases blank

/-- The host has submitted a line, and it has not begun. -/
def isGiven (k : Kernel) (id : Nat) (text : String) : Bool :=
  match k.line? id with
  | some (.unstarted given) => given == text
  | _ => false

theorem line?_of_isGiven {id : Nat} (given : k.isGiven id text = true) :
    k.line? id = some (.unstarted text) := by
  unfold isGiven at given
  split at given
  · rename_i found
    rw [found, eq_of_beq given]
  · cases given

/-- A script is due, and no variable of its own hides the list to which its line adds an item. -/
def isAdding (k : Kernel) (generation : Nat) (text list item : String) : Bool :=
  (k.job? generation).any fun job =>
    let ctx : Context := { line := text, owner := some job.inst }
    job.phase matches .due && k.workspace.isCurrent job.inst &&
      job.inst.source[job.inst.counter]? == some text && !job.inst.locals.contains list &&
      Line.word ctx k.workspace 0 == list && Line.tail ctx k.workspace 1 == some item

theorem exists_begins_of_isAdding {generation : Nat} {text list item : String}
    (adding : k.isAdding generation text list item = true) :
    ∃ owner log, k.Begins (.job generation) owner text log (k.pollJob generation) ∧
      (∀ i, owner = some i → i.locals.contains list = false) ∧
      Line.word { line := text, owner } k.workspace 0 = list ∧
      Line.tail { line := text, owner } k.workspace 1 = some item := by
  obtain ⟨job, found, facts⟩ := (Option.any_eq_true _ _).mp adding
  simp only [Bool.and_eq_true, beq_iff_eq, Bool.not_eq_true'] at facts
  obtain ⟨⟨⟨⟨⟨due, current⟩, here⟩, shown⟩, named⟩, value⟩ := facts
  have phase : job.phase = .due := by
    cases phase : job.phase <;> simp [phase] at due ⊢
  refine ⟨_, _, .tick found phase current here, ?_, named, value⟩
  rintro i ⟨⟩
  exact shown

/-- What the turns of the script and of the host come upon. -/
theorem board_turns :
    openBoard.isBlank "x" = true ∧
    openBoard.isAdding 1 "listadd x 1" "x" "1" = true ∧
    (openBoard.pollJob 1).isCalm = true ∧
    busyBoard.isGiven 1 "listadd x 2" = true ∧
    Line.word { line := "listadd x 2", owner := none } busyBoard.workspace 0 = "x" ∧
    Line.tail { line := "listadd x 2", owner := none } busyBoard.workspace 1 = some "2" ∧
    (busyBoard.pollLine 1).isCalm = true ∧
    ((busyBoard.pollLine 1).pollJob 1).isCalm = true ∧
    fullBoard.isAdding 1 "listadd x 3" "x" "3" = true := by
  rw [fullBoard, busyBoard, openBoard, blankBoard, withParts_eq]
  decide +kernel

/-- A script adds a value, the host adds one, and the script adds another one. -/
theorem script_and_host_add :
    ∃ own, openBoard.Gathers "x" own (fullBoard.pollJob 1) ∧
      own (.job 1) = ["1", "3"] ∧ own (.line 1) = ["2"] ∧
      ∃ merged : List (Party × String),
        (fullBoard.pollJob 1).workspace.globals.get? "x" = some (.list (merged.map Prod.snd)) ∧
          ∀ party, (merged.filter (·.1 = party)).map Prod.snd = own party := by
  obtain ⟨blank, first, calm, given, named₂, value₂, calm', calm'', second⟩ := board_turns
  have moves : blankBoard.Moves openBoard := (blankBoard.give_moves _).trans (launch_moves _ "a")
  obtain ⟨-, -, merges, adds, -⟩ :=
    no_update_is_lost (withParts_fresh ..) (withParts_standard ..) rfl moves
  have typed := (Fresh.typed (withParts_fresh ..) (withParts_standard ..) rfl).moves moves
  have found := get?_of_isBlank blank
  have counts : ∀ {own k k' party owner text log item} (args : List String),
      openBoard.Gathers "x" own k → k.Begins party owner text log k' →
      (∀ i, owner = some i → i.locals.contains "x" = false) →
      Line.word { line := text, owner } k.workspace 0 = "x" →
      Line.tail { line := text, owner } k.workspace 1 = some item →
      Line.isIdle (Line.content text) = false →
      Text.fields (Line.content text) = "listadd" :: args →
      openBoard.Gathers "x" (Function.update own party (own party ++ [item])) k' := by
    intro own k k' party owner text log item args gathers begins shown named value counts split
    have reading : Line.read k.workspace.registry text = .runs Builtin.listAdd args := by
      rw [(typed.moves gathers.moves).standard.registry_eq]
      exact Line.read_runs_of_builtin Registry.standard_holdsBuiltins "listadd" (by simp [builtins])
        counts split (by decide +kernel)
    exact (adds _ _ _ _ _ _ _ _ _ _ _ found gathers begins shown reading named (by decide)
      value).2
  -- The first line of the script.
  obtain ⟨owner, log, begins, shown, named, value⟩ := exists_begins_of_isAdding first
  have one := counts ["x", "1"] .nil begins shown named value (by decide +kernel)
    (by decide +kernel)
  -- The line of the host.
  have busy := one.aside (.submit "listadd x 2") (not_begins_of_isCalm calm)
  have two := counts ["x", "2"] busy (.line (line?_of_isGiven given)) (by simp) named₂ value₂
    (by decide +kernel) (by decide +kernel)
  -- A new round, and the second line of the script.
  have full := (two.aside (.pollJob 1) (not_begins_of_isCalm calm')).aside .beginRound
    (not_begins_of_isCalm calm'')
  obtain ⟨owner', log', begins', shown', named', value'⟩ := exists_begins_of_isAdding second
  have three := counts ["x", "3"] full begins' shown' named' value' (by decide +kernel)
    (by decide +kernel)
  exact ⟨_, three, by simp, by simp, merges _ _ _ _ three found⟩

end Kernel

end LineScript
