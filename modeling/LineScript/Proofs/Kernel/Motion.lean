import LineScript.Proofs.Kernel.Company
import LineScript.Proofs.Kernel.Effect

/-!
# All that a move can do

There are many moves of a kernel and of its host, and few things that they do. A line or a job that
has its turn goes on, and `run?` is what it goes on with; or it has its turn in vain. The host does
something to the workspace, and lines come and go. `Kernel.Motion` has these cases, and
`Move.motion` says that there is no other.
-/

namespace LineScript

namespace Workspace

variable {ws ws' : Workspace}

/-- What is said when these scripts have started. -/
def startNotice (names : List String) (after : Workspace) : List Message :=
  if names = [] then [] else [after.scheduler.announcement]

/-- What is said when a request of the host is over: only the last in flight gives input back. -/
def endNotice (ws : Workspace) : List Message :=
  if ws.busy = 1 then [.input true] else []

/-- What is done to the workspace without a line, and what is said with it. -/
inductive Handled (ws : Workspace) : List Message → Workspace → Prop where
  | nothing : Handled ws [] ws
  | start {names : List String} {started : Started} {ws' : Workspace}
      (ok : ws.startBatch none names = .ok (started, ws')) : Handled ws (startNotice names ws') ws'
  | stop (target : StopTarget) : Handled ws (ws.scheduler.stop target).messages (ws.stop target).2
  | provideInput (line : String) : Handled ws [] (ws.provideInput line)
  | restock (store : Store) : Handled ws [] { ws with store }
  | pass (time : Nat) : Handled ws [] { ws with now := time }
  | remain (wait : Wait) : Handled ws [] (wait.remain ws)
  | abandon (wait : Wait) : Handled ws [] (wait.abandon ws)
  /-- A line is given up that waits. -/
  | discard (wait : Wait) : Handled ws ws.endNotice (wait.abandon ws).endRequest

end Workspace

/-- Where a run has left the workspace. -/
def Run.left {α : Type} (ws : Workspace) : Run α → Workspace
  | .done _ last => last
  | .await _ mid _ => mid
  | .endless => ws

/-- What a line goes on with; none if it can do nothing with its turn. -/
def LineState.run? (state : LineState) (ws : Workspace) : Option (Run Evaluation) :=
  match state with
  | .unstarted text => some (Line.runRequest text ws)
  | .suspended s => if s.wait.isOver ws then some (s.next ws) else none
  | _ => none

/-- Where a run leaves a line. -/
def LineState.after : Run Evaluation → LineState
  | .done evaluation _ => .finished evaluation
  | .await wait _ next => .suspended ⟨wait, next⟩
  | .endless => .lost

/-- A line goes on from its beginning or after its wait. -/
theorem LineState.run?_cases {state : LineState} {ws : Workspace} {run : Run Evaluation}
    (goesOn : state.run? ws = some run) :
    (∃ text, state = .unstarted text ∧ Line.runRequest text ws = run) ∨
      ∃ s, state = .suspended s ∧ s.wait.isOver ws = true ∧ s.next ws = run := by
  cases state with
  | unstarted text => exact .inl ⟨text, rfl, Option.some.inj goesOn⟩
  | suspended s =>
    simp only [run?] at goesOn
    split at goesOn
    · rename_i elapsed
      exact .inr ⟨s, rfl, elapsed, Option.some.inj goesOn⟩
    · cases goesOn
  | cancelled s => cases goesOn
  | finished evaluation => cases goesOn
  | lost => cases goesOn

/-- A job goes on with a tick that is due or after a wait, only if its instance is registered. -/
theorem Job.run?_cases {job : Job} {ws : Workspace} {run : Run Ticked}
    (goesOn : job.run? ws = some run) :
    ws.isCurrent job.inst = true ∧
      (job.phase = .due ∧ job.inst.tick ws = run ∨
        ∃ s, job.phase = .waiting s ∧ s.wait.isOver ws = true ∧ s.next ws = run) := by
  unfold run? at goesOn
  split at goesOn
  · cases goesOn
  · rename_i current
    refine ⟨by simpa [isStale] using current, ?_⟩
    cases phase : job.phase with
    | due =>
      rw [phase] at goesOn
      exact .inl ⟨rfl, Option.some.inj goesOn⟩
    | waiting s =>
      simp only [phase] at goesOn
      split at goesOn
      · rename_i elapsed
        exact .inr ⟨s, rfl, elapsed, Option.some.inj goesOn⟩
      · cases goesOn
    | _ => simp [phase] at goesOn

/-- The job is as it was, or it has come to rest. -/
structure Job.Rests (job job' : Job) : Prop where
  inst : job'.inst = job.inst
  phase : job'.phase = job.phase ∨ job'.phase.wait? = none

/-- A job that does not go on is let go, if its instance was stopped, or it is still there. -/
theorem Job.poll_cases {job : Job} {ws : Workspace} (idle : job.run? ws = none) :
    (job.isStale ws = true ∧ job.poll ws = (none, job.abandon ws)) ∨
      ∃ job' ws', job.poll ws = (some job', ws') ∧ job.Rests job' ∧
        job'.phase.wait? = job.phase.wait? ∧ (ws' = ws ∨ ∃ wait : Wait, ws' = wait.remain ws) := by
  have stays : job.Rests job := ⟨rfl, .inl rfl⟩
  unfold poll
  split
  · rename_i gone
    exact .inl ⟨(Bool.and_eq_true_iff.mp gone).1, rfl⟩
  · rename_i goesOn
    right
    unfold proceed
    cases phase : job.phase with
    | fresh => exact ⟨_, ws, rfl, ⟨rfl, .inr rfl⟩, rfl, .inl rfl⟩
    | resting => exact ⟨_, ws, rfl, stays, congrArg Phase.wait? phase, .inl rfl⟩
    | due =>
      have current : job.isStale ws = false := by simpa [phase, Phase.isFresh] using goesOn
      simp [run?, current, phase] at idle
    | waiting s =>
      have current : job.isStale ws = false := by simpa [phase, Phase.isFresh] using goesOn
      by_cases elapsed : s.wait.isOver ws = true
      · simp [run?, current, phase, elapsed] at idle
      · simp only [elapsed]
        exact ⟨_, _, rfl, stays, congrArg Phase.wait? phase, .inr ⟨s.wait, rfl⟩⟩
    | lost => exact ⟨_, ws, rfl, stays, congrArg Phase.wait? phase, .inl rfl⟩

/-- A turn in which a job does not go on. -/
theorem Job.poll_of_rests {job : Job} {ws : Workspace} (idle : job.run? ws = none) :
    ∃ left ws', job.poll ws = (left, ws') ∧ ws.Handled [] ws' ∧
      ∀ job', left = some job' → job.Rests job' := by
  rcases Job.poll_cases idle with ⟨-, gone⟩ | ⟨job', ws', polled, rests, -, same⟩
  · refine ⟨none, _, gone, ?_, nofun⟩
    unfold abandon
    split
    · exact .abandon _
    · exact .nothing
  · refine ⟨_, ws', polled, ?_, ?_⟩
    · rcases same with rfl | ⟨wait, rfl⟩
      · exact .nothing
      · exact .remain wait
    · rintro _ ⟨⟩
      exact rests

namespace Kernel

variable {k k' : Kernel}

/-- No line goes on: one that waits has waited before, and one that is over was over before. -/
structure LinesRest (k k' : Kernel) : Prop where
  waits : ∀ line ∈ k'.lines, line ∈ k.lines ∨ ∀ s, line.state ≠ .suspended s
  finished : ∀ id evaluation, k'.line? id = some (.finished evaluation) →
    k.line? id = some (.finished evaluation)

/-- All that a move can do. -/
inductive Motion (k : Kernel) : Kernel → Prop where
  /-- Nobody goes on. -/
  | host {said : List Message} {k' : Kernel} (handled : k.workspace.Handled said k'.workspace)
      (jobs : k'.jobs = k.jobs) (lines : k.LinesRest k') : Motion k k'
  | drain {k' : Kernel} (workspace : k'.workspace = k.drain.2.workspace) (jobs : k'.jobs = k.jobs)
      (lines : k'.lines = k.lines) : Motion k k'
  /-- A line goes on. -/
  | line {id : Nat} {state : LineState} {run : Run Evaluation} (found : k.line? id = some state)
      (goesOn : state.run? k.workspace = some run) : Motion k (k.settleLine id run)
  /-- A job goes on. -/
  | job {generation : Nat} {job : Job} {run : Run Ticked} (found : k.job? generation = some job)
      (goesOn : job.run? k.workspace = some run) :
      Motion k (k.settleJob generation (job.settle k.workspace run))
  /-- A job has its turn in vain. -/
  | rest {generation : Nat} {job : Job} {left : Option Job} {ws : Workspace}
      (found : k.job? generation = some job) (idle : job.run? k.workspace = none)
      (handled : k.workspace.Handled [] ws) (rests : ∀ job', left = some job' → job.Rests job') :
      Motion k (k.settleJob generation (left, ws))
  | receive : Motion k k.receive
  | beginRound : Motion k k.beginRound

theorem settleLine_workspace (k : Kernel) (id : Nat) (run : Run Evaluation) :
    (k.settleLine id run).workspace = run.left k.workspace := by
  cases run <;> exact (moveBack_same _ _).workspace

theorem settleLine_jobs (k : Kernel) (id : Nat) (run : Run Evaluation) :
    (k.settleLine id run).jobs = k.jobs := by
  cases run <;> exact (moveBack_same _ _).jobs

theorem mem_settleLine {id : Nat} {run : Run Evaluation} {line : OpenLine}
    (mem : line ∈ (k.settleLine id run).lines) :
    line ∈ k.lines ∧ line.id ≠ id ∨ line.id = id ∧ line.state = .after run := by
  have lines : (k.settleLine id run).lines =
      k.lines.map fun l => if l.id = id then { l with state := .after run } else l := by
    cases run <;> exact (moveBack_same _ _).lines
  rw [lines] at mem
  obtain ⟨old, hold, rfl⟩ := List.mem_map.mp mem
  by_cases mine : old.id = id
  · rw [if_pos mine]
    exact .inr ⟨mine, rfl⟩
  · rw [if_neg mine]
    exact .inl ⟨hold, mine⟩

theorem line?_settleLine {id other : Nat} {run : Run Evaluation} (ne : other ≠ id) :
    (k.settleLine id run).line? other = k.line? other := by
  have same : ∀ state ws, (k.setLine id state ws).line? other = k.line? other := by
    intro state ws
    rw [line?_setLine]
    simp only [if_neg ne, Option.map_id']
  cases run <;> exact same _ _

theorem line?_congr (lines : k'.lines = k.lines) (id : Nat) : k'.line? id = k.line? id := by
  rw [line?, line?, lines]

theorem LinesRest.of_eq (lines : k'.lines = k.lines) : k.LinesRest k' where
  waits _ mem := .inl (lines ▸ mem)
  finished id _ closed := line?_congr lines id ▸ closed

theorem LinesRest.congr {k'' : Kernel} (rest : k.LinesRest k') (lines : k''.lines = k'.lines) :
    k.LinesRest k'' where
  waits line mem := rest.waits line (lines ▸ mem)
  finished id evaluation closed := rest.finished id evaluation (line?_congr lines id ▸ closed)

theorem Motion.same {k'' : Kernel} {said : List Message} (same : k'.Same k'')
    (handled : k.workspace.Handled said k'.workspace) (jobs : k'.jobs = k.jobs)
    (lines : k.LinesRest k') : k.Motion k'' := by
  rw [← same.workspace] at handled
  exact .host handled (same.jobs.trans jobs) (lines.congr same.lines)

theorem submit_linesRest (k : Kernel) (text : String) : k.LinesRest (k.submit text).2 where
  waits := by
    intro line mem
    rcases List.mem_append.mp mem with old | new
    · exact .inl old
    · rw [List.mem_singleton.mp new]
      exact .inr nofun
  finished := by
    intro id evaluation closed
    obtain ⟨line, first, state⟩ := Option.map_eq_some_iff.mp closed
    rw [show (k.submit text).2.lines = k.lines ++ [_] from rfl, List.find?_append] at first
    cases old : k.lines.find? (·.id == id) with
    | some line' =>
      rw [old] at first
      cases first
      rw [line?, old]
      exact congrArg some state
    | none =>
      rw [old] at first
      have mem := List.mem_of_find?_eq_some first
      rw [List.mem_singleton.mp mem] at state
      cases state

theorem removeLine_linesRest (k : Kernel) (id : Nat) : k.LinesRest (k.removeLine id) where
  waits _ mem := .inl (List.mem_of_mem_filter mem)
  finished := by
    intro other evaluation closed
    by_cases mine : other = id
    · obtain ⟨line, mem, named, -⟩ := exists_line_of_line? closed
      exact absurd (named.trans mine) (bne_iff_ne.mp (List.mem_filter.mp mem).2)
    · rw [line?_removeLine mine] at closed
      exact closed

theorem cancelled_linesRest (k : Kernel) (id : Nat) (s : Suspended Evaluation) :
    k.LinesRest (k.setLine id (.cancelled s) k.workspace) where
  waits := by
    intro line mem
    rw [setLine, (moveBack_same _ _).lines] at mem
    obtain ⟨old, hold, rfl⟩ := List.mem_map.mp mem
    by_cases mine : old.id = id
    · right
      intro s' waits
      rw [if_pos mine] at waits
      cases waits
    · rw [if_neg mine]
      exact .inl hold
  finished := by
    intro other evaluation closed
    rw [line?_setLine] at closed
    obtain ⟨old, found, same⟩ := Option.map_eq_some_iff.mp closed
    split at same
    · cases same
    · rw [found, same]

theorem discard_motion (k : Kernel) (id : Nat) (wait : Wait) : k.Motion (k.discard id wait) :=
  .same (callReady_same _) (.discard wait) rfl ((k.removeLine_linesRest id).congr rfl)

theorem dropLine_motion (k : Kernel) (id : Nat) : k.Motion (k.dropLine id) := by
  unfold dropLine
  split
  · exact k.discard_motion id _
  · exact k.discard_motion id _
  · exact .host .nothing rfl (k.removeLine_linesRest id)

theorem cancelLine_motion (k : Kernel) (id : Nat) : k.Motion (k.cancelLine id) := by
  unfold cancelLine
  split
  · rename_i s _
    have handled : k.workspace.Handled [] (k.setLine id (.cancelled s) k.workspace).workspace := by
      rw [setLine, (moveBack_same _ _).workspace]
      exact .nothing
    exact .same (callReady_same _) handled (moveBack_same _ _).jobs (k.cancelled_linesRest id s)
  · exact k.dropLine_motion id

theorem pollLine_of_run? {id : Nat} {state : LineState} {run : Run Evaluation}
    (found : k.line? id = some state) (goesOn : state.run? k.workspace = some run) :
    k.pollLine id = k.settleLine id run := by
  unfold pollLine
  rw [found]
  obtain ⟨text, rfl, rfl⟩ | ⟨s, rfl, elapsed, rfl⟩ := LineState.run?_cases goesOn
  · rfl
  · simp only [elapsed, if_true]

theorem pollLine_motion (k : Kernel) (id : Nat) : k.Motion (k.pollLine id) := by
  cases found : k.line? id with
  | none =>
    simp only [pollLine, found]
    exact .host .nothing rfl (.of_eq rfl)
  | some state =>
    cases goesOn : state.run? k.workspace with
    | some run =>
      rw [pollLine_of_run? found goesOn]
      exact .line found goesOn
    | none =>
      unfold pollLine
      rw [found]
      cases state with
      | unstarted text => cases goesOn
      | suspended s =>
        simp only [LineState.run?] at goesOn
        split at goesOn
        · cases goesOn
        · rename_i waits
          simp only [waits]
          exact .host (.remain s.wait) rfl (.of_eq rfl)
      | cancelled s => exact k.discard_motion id s.wait
      | finished evaluation => exact .host .nothing rfl (.of_eq rfl)
      | lost => exact .host .nothing rfl (.of_eq rfl)

theorem pollJob_of_run? {generation : Nat} {job : Job} {run : Run Ticked}
    (found : k.job? generation = some job) (goesOn : job.run? k.workspace = some run) :
    k.pollJob generation = k.settleJob generation (job.settle k.workspace run) := by
  simp only [pollJob, found, Job.poll_of_run? goesOn]

theorem pollJob_motion (k : Kernel) (generation : Nat) : k.Motion (k.pollJob generation) := by
  cases found : k.job? generation with
  | none =>
    simp only [pollJob, found]
    exact .host .nothing rfl (.of_eq rfl)
  | some job =>
    cases goesOn : job.run? k.workspace with
    | some run =>
      rw [pollJob_of_run? found goesOn]
      exact .job found goesOn
    | none =>
      obtain ⟨left, ws, polled, handled, rests⟩ := Job.poll_of_rests goesOn
      simp only [pollJob, found, polled]
      exact .rest found goesOn handled rests

/-- Every move is one of these. -/
theorem Move.motion (move : k.Move k') : k.Motion k' := by
  cases move with
  | start ok =>
    unfold Kernel.start at ok
    split at ok
    · rename_i started ws ok'
      cases ok
      exact .same (callReady_same _) (.start ok') rfl (.of_eq rfl)
    · cases ok
  | stop target => exact .same (callReady_same _) (.stop target) rfl (.of_eq rfl)
  | provideInput line => exact .same (callReady_same _) (.provideInput line) rfl (.of_eq rfl)
  | drain => exact .drain rfl rfl rfl
  | restock store => exact .host (.restock store) rfl (.of_eq rfl)
  | submit text => exact .host .nothing rfl (k.submit_linesRest text)
  | spawn text => exact .same (callReady_same _) .nothing rfl ((k.submit_linesRest text).congr rfl)
  | takeLine id =>
    unfold Kernel.takeLine
    split <;> exact .host .nothing rfl (k.removeLine_linesRest id)
  | dropLine id => exact k.dropLine_motion id
  | cancelLine id => exact k.cancelLine_motion id
  | pollLine id => exact k.pollLine_motion id
  | receive => exact .receive
  | pollJob generation => exact k.pollJob_motion generation
  | beginRound => exact .beginRound
  | passTo time => exact .same (callReady_same _) (.pass _) rfl (.of_eq rfl)
  | reorder same => exact .same same .nothing rfl (.of_eq rfl)

end Kernel

end LineScript
