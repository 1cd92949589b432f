import LineScript.Proofs.Kernel.Rounds
import LineScript.Proofs.Line.Attendance

/-!
# Turns without stops

What a turn of a kernel does as long as nothing is stopped and no line is given up. A line or a
script waits for what it starts, so a turn leaves the active set alone, or it starts one batch and
whoever has started it waits for it, or one instance leaves.

* `Job.Turns` is what a turn of a job comes to, `KeepsLines` what becomes of the lines of the host.
* `Turn` is a turn with whoever takes it, and `Effect` is all that it comes to.
* Whoever waits for a batch with members left is as it was after any turn (`Effect.awaits`).
-/

namespace LineScript

/-! ## The active set -/

namespace Workspace

/-- No script starts or ends; batches of none may have been counted. -/
structure Steady (ws ws' : Workspace) : Prop where
  scheduler : ∃ n, ws'.scheduler =
    { ws.scheduler with lastBatch := ws.scheduler.lastBatch + n }
  inbox : ws'.inbox = ws.inbox

variable {ws ws' ws'' : Workspace}

theorem Steady.of_eq (scheduler : ws'.scheduler = ws.scheduler) (inbox : ws'.inbox = ws.inbox) :
    ws.Steady ws' :=
  ⟨⟨0, scheduler⟩, inbox⟩

theorem Steady.refl (ws : Workspace) : ws.Steady ws :=
  .of_eq rfl rfl

theorem Steady.trans (first : ws.Steady ws') (second : ws'.Steady ws'') : ws.Steady ws'' := by
  obtain ⟨⟨n, scheduler⟩, inbox⟩ := first
  obtain ⟨⟨m, scheduler'⟩, inbox'⟩ := second
  refine ⟨⟨n + m, ?_⟩, inbox'.trans inbox⟩
  rw [scheduler', scheduler]
  simp only [Nat.add_assoc]

theorem Steady.active (h : ws.Steady ws') : ws'.scheduler.active = ws.scheduler.active := by
  obtain ⟨n, eq⟩ := h.scheduler
  rw [eq]

theorem Steady.lastBatch_le (h : ws.Steady ws') :
    ws.scheduler.lastBatch ≤ ws'.scheduler.lastBatch := by
  obtain ⟨n, eq⟩ := h.scheduler
  rw [eq]
  exact Nat.le_add_right ..

theorem Steady.isCurrent (h : ws.Steady ws') (i : Instance) :
    ws'.isCurrent i = ws.isCurrent i := by
  unfold Workspace.isCurrent Scheduler.isCurrent
  rw [h.active]

/-- The instances of a batch that has started are registered and wait in the inbox, and the batch
is the last one. -/
theorem Steady.start (h : ws.Steady ws') {invoker : Option String} {names : List String}
    {started : Started} (ok : ws'.startBatch invoker names = .ok (started, ws'')) :
    ws.scheduler.lastBatch < started.batch ∧ ws''.scheduler.lastBatch = started.batch ∧
      ∃ new : List Instance, (∀ i ∈ new, i.batch = started.batch) ∧
        ws''.scheduler.active = ws.scheduler.active ++ new.map Instance.entry ∧
        ws''.inbox = ws.inbox ++ new := by
  obtain ⟨-, scripts, e, -, new, rfl, rfl⟩ := startBatch_ok ok
  have before := h.lastBatch_le
  refine ⟨?_, ?_, ws'.scheduler.newInstances scripts, ?_, ?_, ?_⟩
  · simp only [new.batch]
    omega
  · simp only [new.lastBatch, new.batch]
  · intro i mem
    simp only [new.batch]
    exact Scheduler.batch_of_mem_newInstances mem
  · simp only [new.active, h.active]
  · simp only [new.instances, h.inbox]

/-- Who is registered after an end was registered before it, and only who has the name leaves. -/
theorem Steady.finish (h : ws.Steady ws') (i : Instance) :
    (∀ e ∈ (ws'.finish i).scheduler.active, e ∈ ws.scheduler.active) ∧
      (∀ e ∈ ws.scheduler.active, e.name ≠ i.name → e ∈ (ws'.finish i).scheduler.active) ∧
      ws.scheduler.lastBatch ≤ (ws'.finish i).scheduler.lastBatch := by
  rw [Workspace.finish_scheduler]
  rcases Scheduler.finish_cases ws'.scheduler i with ⟨-, eq⟩ | ⟨-, eq⟩
  · rw [eq, ← h.active]
    refine ⟨fun e mem => (Scheduler.mem_without.mp mem).1, fun e mem other => ?_, h.lastBatch_le⟩
    refine Scheduler.mem_without.mpr ⟨mem, fun g leaves => ?_⟩
    rw [List.mem_singleton.mp leaves]
    exact Ne.symm other
  · rw [eq, h.active]
    exact ⟨fun e mem => mem, fun e mem _ => mem, h.lastBatch_le⟩

end Workspace

theorem Aside.steady {ws ws' : Workspace} (h : Aside ws ws') : ws.Steady ws' :=
  .of_eq h.frame.1 h.frame.2

theorem Line.Stays.steady {invoker : Option String} {ws ws' : Workspace}
    (h : Line.Stays invoker ws ws') : ws.Steady ws' :=
  ⟨h.calm.scheduler, h.calm.inbox⟩

/-! ## Turns of jobs -/

namespace Job

/-- If the job is within a tick, the rest of the tick waits for what it starts. -/
def Attends (job : Job) : Prop :=
  ∀ s, job.phase = .waiting s → ∀ ws, job.inst.Attends ws (s.next ws)

/-- All that a turn of a job can come to while its instance is running: the active set stays as it
is, the job has started a batch and waits for it, or its instance has ended. -/
inductive Turns (job : Job) (ws : Workspace) : Option Job × Workspace → Prop where
  | stays {job' : Job} {ws' : Workspace} (same : job'.inst.entry = job.inst.entry)
      (attends : job'.Attends) (steady : ws.Steady ws') : Turns job ws (some job', ws')
  | starts {s : Suspended Ticked} {names : List String} {started : Workspace.Started}
      {before ws' : Workspace} (steady : ws.Steady before)
      (ok : before.startBatch (some job.inst.name) names = .ok (started, ws'))
      (wait : s.wait = .batch started.batch)
      (attends : ({ job with phase := .waiting s } : Job).Attends) :
      Turns job ws (some { job with phase := .waiting s }, ws')
  | ends {i : Instance} {before : Workspace} (same : i.entry = job.inst.entry)
      (steady : ws.Steady before) : Turns job ws (none, before.finish i)

variable {job : Job} {ws : Workspace}

theorem attends_of_wait?_eq_none (idle : job.phase.wait? = none) : job.Attends := by
  intro s waiting
  rw [waiting] at idle
  cases idle

theorem settle_turns (current : ws.isCurrent job.inst = true) {run : Run Ticked}
    (h : job.inst.Attends ws run) : job.Turns ws (job.settle ws run) := by
  cases h with
  | endless => exact .stays rfl (attends_of_wait?_eq_none rfl) (.refl ws)
  | await here rest =>
    have attends : ∀ (wait : Wait) (next : Workspace → Run Ticked),
        (∀ later, job.inst.Attends later (next later)) →
          ({ job with phase := .waiting ⟨wait, next⟩ } : Job).Attends := by
      intro wait next rest s waiting
      cases waiting
      exact rest
    cases here with
    | rests still _ => exact .stays rfl (attends _ _ rest) still.steady
    | starts still ok => exact .starts still.steady ok rfl (attends _ _ rest)
  | @done _ _ ticked final =>
    obtain ⟨before, said, still, -, rfl, concludes⟩ := final
    have ending := concludes.ending
    have steady : ws.Steady (before.publish said) := still.steady.trans (.of_eq rfl rfl)
    obtain ⟨i, outcome⟩ := ticked
    cases outcome with
    | running => exact .stays ending.entry_eq (attends_of_wait?_eq_none rfl) steady
    | ended reason => exact .ends ending.entry_eq steady
    | cancelled =>
      -- Only an instance that was stopped is given up.
      have stale := ending.cancelled rfl
      rw [still.steady.isCurrent, current] at stale
      cases stale

theorem poll_of_current (current : ws.isCurrent job.inst = true) :
    job.poll ws = job.proceed ws := by
  unfold poll isStale
  simp [current]

theorem poll_turns (current : ws.isCurrent job.inst = true) (attends : job.Attends) :
    job.Turns ws (job.poll ws) := by
  rw [poll_of_current current]
  unfold proceed
  cases phase : job.phase with
  | fresh => exact .stays rfl (attends_of_wait?_eq_none rfl) (.refl ws)
  | resting => exact .stays rfl attends (.refl ws)
  | due => exact settle_turns current (job.inst.tick_attends ws)
  | waiting s =>
    by_cases done : s.wait.isOver ws = true
    · simp only [done, if_true]
      exact settle_turns current (attends s phase ws)
    · simp only [done]
      exact .stays rfl attends (Aside.remain s.wait).steady
  | lost => exact .stays rfl attends (.refl ws)

/-- While a job waits for a batch that is not complete, its turns come to nothing. -/
theorem poll_of_unfinished {batch : Nat} (current : ws.isCurrent job.inst = true)
    (waits : job.phase.wait? = some (.batch batch))
    (unfinished : ws.scheduler.isComplete batch = false) : job.poll ws = (some job, ws) := by
  rw [poll_of_current current]
  unfold proceed
  cases phase : job.phase with
  | waiting s =>
    rw [phase] at waits
    have wait : s.wait = .batch batch := Option.some.inj waits
    simp [wait, Wait.isOver, unfinished, Wait.remain]
  | _ => simp [phase, Phase.wait?] at waits

end Job

/-! ## Turns of lines -/

/-- If the line waits, the rest of it waits for what it starts; and it has not been given up. -/
def LineState.Answers : LineState → Prop
  | .suspended s => ∀ ws, Line.Answers ws (s.next ws)
  | .cancelled _ => False
  | _ => True

/-- Where a batch comes from. -/
inductive Starter where
  /-- The host has started it without waiting for it. -/
  | host
  /-- A line of the host. -/
  | line (id : Nat)
  /-- A tick of the instance with this registration. -/
  | script (entry : Active)
  deriving DecidableEq

namespace Kernel

variable {k k' : Kernel} {who : Starter}

/-- The starter is in the middle of waiting for the batch. The host never has to. -/
def Awaits (k : Kernel) : Starter → Nat → Prop
  | .host, _ => True
  | .line id, batch => k.wait? (.line id) = some (.batch batch)
  | .script entry, batch => ∃ job, k.job? entry.generation = some job ∧ job.inst.entry = entry ∧
      job.phase.wait? = some (.batch batch)

/-- No line is lost that waits for a batch with members left, and no line has been given up. -/
structure KeepsLines (k k' : Kernel) : Prop where
  answers : (∀ line ∈ k.lines, line.state.Answers) → ∀ line ∈ k'.lines, line.state.Answers
  waits : ∀ id batch, k.wait? (.line id) = some (.batch batch) →
    k.workspace.scheduler.HasMember batch → k'.wait? (.line id) = some (.batch batch)

/-- All that a turn comes to. -/
inductive Effect (k : Kernel) : Starter → Kernel → Prop where
  /-- No script starts or ends. -/
  | aside {who : Starter} {k' : Kernel} (steady : k.workspace.Steady k'.workspace)
      (jobs : k'.jobs = k.jobs) (lines : k.KeepsLines k') : Effect k who k'
  /-- The host or a line of it starts a batch. -/
  | starts {who : Starter} {k' : Kernel} {invoker : Option String} {names : List String}
      {started : Workspace.Started} {before after : Workspace} (steady : k.workspace.Steady before)
      (ok : before.startBatch invoker names = .ok (started, after))
      (workspace : k'.workspace = after) (jobs : k'.jobs = k.jobs) (lines : k.KeepsLines k')
      (awaits : k'.Awaits who started.batch) : Effect k who k'
  | receive {k' : Kernel} (scheduler : k'.workspace.scheduler = k.workspace.scheduler)
      (inbox : k'.workspace.inbox = [])
      (jobs : k'.jobs = k.jobs ++ k.workspace.inbox.map fun i => { inst := i })
      (lines : k.KeepsLines k') : Effect k .host k'
  | rise {k' : Kernel} (workspace : k'.workspace = k.workspace)
      (jobs : k'.jobs = k.jobs.map Job.rise) (lines : k.KeepsLines k') : Effect k .host k'
  /-- A job has a turn. -/
  | tick {k' : Kernel} {job : Job} {polled : Option Job × Workspace}
      (found : k.job? job.generation = some job) (turns : job.Turns k.workspace polled)
      (idle : ∀ batch, job.phase.wait? = some (.batch batch) →
        k.workspace.scheduler.HasMember batch → polled = (some job, k.workspace))
      (workspace : k'.workspace = polled.2)
      (jobs : k'.jobs =
        k.jobs.filter (·.generation != job.generation) ++ polled.1.toList)
      (lines : k.KeepsLines k') : Effect k (.script job.inst.entry) k'

/-- A turn of a kernel or an act of its host, and whose it is. Nothing is stopped and no line is
given up. -/
inductive Turn (k : Kernel) : Starter → Kernel → Prop where
  | start {names : List String} {started : Workspace.Started} {k' : Kernel}
      (ok : k.start names = .ok (started, k')) : Turn k .host k'
  | provideInput (line : String) : Turn k .host (k.provideInput line)
  | drain : Turn k .host k.drain.2
  | restock (store : Store) : Turn k .host { k with workspace := { k.workspace with store } }
  | submit (text : String) : Turn k .host (k.submit text).2
  | spawn (text : String) : Turn k .host (k.spawn text).2
  | takeLine {id : Nat} {evaluation : Evaluation}
      (finished : k.line? id = some (.finished evaluation)) : Turn k .host (k.takeLine id).2
  | pollLine (id : Nat) : Turn k (.line id) (k.pollLine id)
  | receive : Turn k .host k.receive
  | pollJob {job : Job} (found : k.job? job.generation = some job) :
      Turn k (.script job.inst.entry) (k.pollJob job.generation)
  | beginRound : Turn k .host k.beginRound
  | passTo (time : Nat) : Turn k .host (k.passTo time)
  /-- Only the order of the next turns changes. -/
  | reorder {k' : Kernel} (same : k.Same k') : Turn k .host k'

theorem Turn.move (turn : k.Turn who k') : k.Move k' := by
  cases turn with
  | start ok => exact .start ok
  | provideInput line => exact .provideInput line
  | drain => exact .drain
  | restock store => exact .restock store
  | submit text => exact .submit text
  | spawn text => exact .spawn text
  | takeLine _ => exact .takeLine _
  | pollLine id => exact .pollLine id
  | receive => exact .receive
  | pollJob _ => exact .pollJob _
  | beginRound => exact .beginRound
  | passTo time => exact .passTo time
  | reorder same => exact .reorder same

/-- What is looked for and kept is found where it was. -/
theorem find?_filter_of_imp {α : Type} {p q : α → Bool} (kept : ∀ a, q a = true → p a = true)
    (l : List α) : (l.filter p).find? q = l.find? q := by
  rw [List.find?_filter]
  refine congrArg (fun r => l.find? r) (funext fun a => ?_)
  cases found : q a with
  | false => simp
  | true => simp [kept a found]

/-! ### Lines -/

theorem wait?_line_congr (lines : k'.lines = k.lines) (id : Nat) :
    k'.wait? (.line id) = k.wait? (.line id) := by
  unfold wait? line?
  rw [lines]

theorem KeepsLines.of_eq (lines : k'.lines = k.lines) : k.KeepsLines k' where
  answers := fun h => by rwa [lines]
  waits := fun id batch waits _ => by rwa [wait?_line_congr lines]

/-- A new line does not get in the way of the others. -/
theorem KeepsLines.submit (text : String) (lines : k'.lines = (k.submit text).2.lines) :
    k.KeepsLines k' where
  answers := by
    intro h line mem
    rw [lines] at mem
    rcases List.mem_append.mp mem with old | new
    · exact h line old
    · rw [List.mem_singleton.mp new]
      trivial
  waits := by
    intro id batch waits _
    rw [wait?_line_congr lines]
    unfold Kernel.wait? Kernel.line? at waits ⊢
    obtain ⟨state, found, wait⟩ := Option.bind_eq_some_iff.mp waits
    obtain ⟨line, first, rfl⟩ := Option.map_eq_some_iff.mp found
    simp [Kernel.submit, List.find?_append, first, wait]

theorem line?_removeLine {id other : Nat} (ne : other ≠ id) :
    (k.removeLine id).line? other = k.line? other := by
  refine congrArg (Option.map _) (find?_filter_of_imp (fun line found => ?_) k.lines)
  simp_all

theorem KeepsLines.takeLine {id : Nat} {evaluation : Evaluation}
    (finished : k.line? id = some (.finished evaluation)) :
    k.KeepsLines (k.takeLine id).2 := by
  have taken : (k.takeLine id).2 = k.removeLine id := by
    unfold Kernel.takeLine
    rw [finished]
  rw [taken]
  refine ⟨fun h line mem => h line (List.mem_of_mem_filter mem), ?_⟩
  intro other batch waits _
  have ne : other ≠ id := by
    rintro rfl
    simp [Kernel.wait?, finished, LineState.wait?] at waits
  rw [Kernel.wait?, line?_removeLine ne]
  exact waits

theorem line?_setLine {id : Nat} {state : LineState} {ws : Workspace} (other : Nat) :
    (k.setLine id state ws).line? other =
      (k.line? other).map fun old => if other = id then state else old := by
  let replace : OpenLine → OpenLine := fun l => if l.id = id then { l with state } else l
  have lines : (k.setLine id state ws).lines = k.lines.map replace := (moveBack_same _ _).lines
  have ids : ((fun l : OpenLine => l.id == other) ∘ replace) = fun l => l.id == other := by
    funext l
    by_cases mine : l.id = id
    · simp [replace, mine]
    · simp [replace, mine]
  unfold line?
  rw [lines, List.find?_map, ids]
  cases found : k.lines.find? (·.id == other) with
  | none => rfl
  | some line =>
    have mine : line.id = other := by simpa using List.find?_some found
    by_cases same : other = id
    · simp [replace, mine, same]
    · simp [replace, mine, same]

/-- A line may come to a new state unless it waits for a batch with members left. -/
theorem KeepsLines.setLine {id : Nat} {state : LineState} {ws : Workspace}
    (answers : state.Answers)
    (free : ∀ batch, k.wait? (.line id) = some (.batch batch) →
      ¬ k.workspace.scheduler.HasMember batch) : k.KeepsLines (k.setLine id state ws) where
  answers := by
    intro h line mem
    rw [Kernel.setLine, (moveBack_same _ _).lines] at mem
    obtain ⟨old, hold, rfl⟩ := List.mem_map.mp mem
    split
    · exact answers
    · exact h old hold
  waits := by
    intro other batch waits member
    have ne : other ≠ id := by
      rintro rfl
      exact free batch waits member
    unfold Kernel.wait? at waits ⊢
    simpa [line?_setLine, ne] using waits

/-! ### What the turns come to -/

/-- Where a run leaves a line of the host. -/
theorem settleLine_effect {id : Nat} {start : Workspace} {run : Run Evaluation} {state : LineState}
    (found : k.line? id = some state)
    (free : ∀ batch, k.wait? (.line id) = some (.batch batch) →
      ¬ k.workspace.scheduler.HasMember batch)
    (begins : k.workspace.Steady start) (answers : Line.Answers start run) :
    k.Effect (.line id) (k.settleLine id run) := by
  have workspace : ∀ {state ws}, (k.setLine id state ws).workspace = ws :=
    (moveBack_same _ _).workspace
  have jobs : ∀ {state ws}, (k.setLine id state ws).jobs = k.jobs := (moveBack_same _ _).jobs
  cases answers with
  | endless =>
    exact .aside (by rw [settleLine, workspace]; exact .refl _) jobs (.setLine trivial free)
  | done final =>
    obtain ⟨before, said, still, -, rfl⟩ := final
    refine .aside ?_ jobs (.setLine trivial free)
    have published : before.Steady (before.publish said) := .of_eq rfl rfl
    rw [settleLine, workspace]
    exact begins.trans (still.steady.trans (published.trans Aside.endRequest.steady))
  | await here rest =>
    cases here with
    | rests still _ =>
      refine .aside ?_ jobs (.setLine rest free)
      rw [settleLine, workspace]
      exact begins.trans still.steady
    | starts still ok =>
      refine .starts (begins.trans still.steady) ok workspace jobs (.setLine rest free) ?_
      simp [Awaits, wait?, settleLine, line?_setLine, found, LineState.wait?]

/-- A turn of a line. While it waits for a batch with members left nothing happens. -/
theorem pollLine_effect (sound : k.workspace.scheduler.Sound)
    (lines : ∀ line ∈ k.lines, line.state.Answers) (id : Nat) :
    k.Effect (.line id) (k.pollLine id) := by
  have nothing : k.Effect (.line id) k := .aside (.refl _) rfl (.of_eq rfl)
  unfold pollLine
  cases found : k.line? id with
  | none => exact nothing
  | some state =>
    obtain ⟨line, mem, rfl⟩ := mem_of_line? found
    have answers := lines line mem
    cases state : line.state with
    | unstarted text =>
      rw [state] at found
      refine settleLine_effect found ?_ Aside.beginRequest.steady (Line.runRequest_answers text _)
      intro batch waits
      simp [wait?, found, LineState.wait?] at waits
    | suspended s =>
      rw [state] at found answers
      by_cases done : s.wait.isOver k.workspace = true
      · simp only [done, if_true]
        refine settleLine_effect found ?_ (.refl _) (answers k.workspace)
        intro batch waits member
        have wait : s.wait = .batch batch := by
          simpa [wait?, found, LineState.wait?] using waits
        rw [wait] at done
        exact ((sound.isComplete_iff batch).mp done).2.2 member
      · simp only [done]
        exact .aside (Aside.remain s.wait).steady rfl (.of_eq rfl)
    | cancelled s =>
      rw [state] at answers
      exact answers.elim
    | finished evaluation => exact nothing
    | lost => exact nothing

theorem Turn.effect (sound : k.workspace.scheduler.Sound)
    (current : ∀ job ∈ k.jobs, k.workspace.isCurrent job.inst = true)
    (jobs : ∀ job ∈ k.jobs, job.Attends) (lines : ∀ line ∈ k.lines, line.state.Answers)
    (turn : k.Turn who k') : k.Effect who k' := by
  cases turn with
  | @start names started _ ok =>
    unfold Kernel.start at ok
    split at ok
    · rename_i batch ws started
      cases ok
      have same := callReady_same { k with workspace := ws }
      exact .starts (.refl _) started same.workspace same.jobs (.of_eq same.lines) trivial
    · cases ok
  | provideInput line =>
    have same := callReady_same { k with workspace := k.workspace.provideInput line }
    refine .aside ?_ same.jobs (.of_eq same.lines)
    rw [Kernel.provideInput, same.workspace]
    exact (Aside.provideInput line).steady
  | drain => exact .aside Aside.drain.steady rfl (.of_eq rfl)
  | restock store => exact .aside (Aside.restock store).steady rfl (.of_eq rfl)
  | submit text => exact .aside (.refl _) rfl (.submit text rfl)
  | spawn text =>
    have same := callReady_same { (k.submit text).2 with
      parties := (k.submit text).2.parties ++ [.line (k.submit text).1] }
    refine .aside ?_ same.jobs (.submit text same.lines)
    rw [Kernel.spawn, same.workspace]
    exact .refl _
  | takeLine finished =>
    refine .aside ?_ ?_ (.takeLine finished)
    · unfold Kernel.takeLine
      split <;> exact .refl _
    · unfold Kernel.takeLine
      split <;> rfl
  | pollLine id => exact pollLine_effect sound lines id
  | receive =>
    refine .receive ?_ ?_ k.receive_jobs (.of_eq k.receive_lines)
    · rw [receive_workspace]
    · rw [receive_workspace]
  | @pollJob job found =>
    have mem := List.mem_of_find?_eq_some found
    have polled : k.pollJob job.generation =
        k.settleJob job.generation (job.poll k.workspace) := by
      unfold Kernel.pollJob
      rw [found]
    rw [polled]
    refine .tick found (job.poll_turns (current job mem) (jobs job mem)) ?_ rfl rfl (.of_eq rfl)
    intro batch waits member
    refine job.poll_of_unfinished (current job mem) waits (Bool.eq_false_iff.mpr ?_)
    intro complete
    exact ((sound.isComplete_iff batch).mp complete).2.2 member
  | beginRound =>
    exact .rise k.beginRound_workspace k.beginRound_jobs (.of_eq k.beginRound_lines)
  | passTo time =>
    have same := k.passTo_same time
    refine .aside ?_ same.jobs (.of_eq same.lines)
    rw [same.workspace]
    exact (Aside.pass _).steady
  | reorder same =>
    refine .aside ?_ same.jobs (.of_eq same.lines)
    rw [same.workspace]
    exact .refl _

/-! ## Effects on the active set and the jobs -/

section Settled

variable {generation : Nat} {extra : List Job}

/-- A job that had a turn is what the turn has left of it. -/
theorem job?_settled
    (jobs : k'.jobs = k.jobs.filter (·.generation != generation) ++ extra) :
    k'.job? generation = extra.find? (·.generation == generation) := by
  have others : (k.jobs.filter (·.generation != generation)).find? (·.generation == generation) =
      none := by
    simp
  unfold job?
  rw [jobs, List.find?_append, others, Option.none_or]

/-- The other jobs stay as they are. -/
theorem job?_settled_of_ne
    (jobs : k'.jobs = k.jobs.filter (·.generation != generation) ++ extra) {other : Nat} {job : Job}
    (ne : other ≠ generation) (found : k.job? other = some job) : k'.job? other = some job := by
  have kept : ∀ a : Job, (a.generation == other) = true → (a.generation != generation) = true := by
    intro a mine
    rw [beq_iff_eq.mp mine]
    exact bne_iff_ne.mpr ne
  unfold job? at found ⊢
  rw [jobs, List.find?_append, find?_filter_of_imp kept, found, Option.some_or]

end Settled

theorem job?_risen (jobs : k'.jobs = k.jobs.map Job.rise) (generation : Nat) :
    k'.job? generation = (k.job? generation).map Job.rise := by
  have generations : (fun a : Job => a.generation == generation) ∘ Job.rise =
      fun a => a.generation == generation := by
    funext a
    simp [Job.generation, Job.rise_inst]
  unfold job?
  rw [jobs, List.find?_map, generations]

/-- Whoever is registered after a turn was registered before it or is in the batch that the turn has
started, for which its starter waits. -/
theorem Effect.active_cases (effect : k.Effect who k') {e : Active}
    (mem : e ∈ k'.workspace.scheduler.active) :
    e ∈ k.workspace.scheduler.active ∨
      k.workspace.scheduler.lastBatch < e.batch ∧ k'.Awaits who e.batch := by
  have added : ∀ {before after invoker names started}, k.workspace.Steady before →
      before.startBatch invoker names = .ok (started, after) →
      e ∈ after.scheduler.active → e ∈ k.workspace.scheduler.active ∨
        k.workspace.scheduler.lastBatch < e.batch ∧ e.batch = started.batch := by
    intro before after invoker names started steady ok mem
    obtain ⟨later, -, new, batch, active, -⟩ := steady.start ok
    rw [active, List.mem_append] at mem
    refine mem.imp_right fun mem => ?_
    obtain ⟨i, hi, rfl⟩ := List.mem_map.mp mem
    have mine : i.entry.batch = started.batch := batch i hi
    exact ⟨mine ▸ later, mine⟩
  cases effect with
  | aside steady _ _ =>
    rw [steady.active] at mem
    exact .inl mem
  | starts steady ok workspace _ _ awaits =>
    rw [workspace] at mem
    refine (added steady ok mem).imp_right fun ⟨later, mine⟩ => ⟨later, ?_⟩
    rwa [mine]
  | receive scheduler _ _ _ =>
    rw [scheduler] at mem
    exact .inl mem
  | rise workspace _ _ =>
    rw [workspace] at mem
    exact .inl mem
  | @tick _ job polled found turns _ workspace jobs _ =>
    rw [workspace] at mem
    cases turns with
    | stays _ _ steady =>
      rw [steady.active] at mem
      exact .inl mem
    | @starts s _ _ _ _ steady ok wait _ =>
      refine (added steady ok mem).imp_right fun ⟨later, mine⟩ => ⟨later, ?_⟩
      refine ⟨{ job with phase := .waiting s }, ?_, rfl, by rw [mine, ← wait]; rfl⟩
      exact (job?_settled jobs).trans (by simp [Job.generation])
    | ends _ steady => exact .inl ((steady.finish _).1 e mem)

/-- A job that waits for a batch with members left is the same after a turn, whoever's turn it
was. -/
theorem Effect.job?_eq (effect : k.Effect who k') {generation batch : Nat} {job : Job}
    (found : k.job? generation = some job) (waits : job.phase.wait? = some (.batch batch))
    (member : k.workspace.scheduler.HasMember batch) : k'.job? generation = some job := by
  have unchanged : k'.jobs = k.jobs → k'.job? generation = some job := by
    intro jobs
    unfold job?
    rw [jobs]
    exact found
  cases effect with
  | aside _ jobs _ => exact unchanged jobs
  | starts _ _ _ jobs _ _ => exact unchanged jobs
  | receive _ _ jobs _ =>
    unfold job? at found ⊢
    rw [jobs, List.find?_append, found, Option.some_or]
  | rise _ jobs _ =>
    -- A new round is nothing to a job that waits.
    have up : job.rise = job := by
      unfold Job.rise
      cases phase : job.phase with
      | resting => simp [phase, Phase.wait?] at waits
      | _ => rfl
    rw [job?_risen jobs, found, Option.map_some, up]
  | @tick _ other polled mine _ idle _ jobs _ =>
    by_cases same : generation = other.generation
    · subst same
      obtain rfl : job = other := Option.some.inj (found.symm.trans mine)
      rw [job?_settled jobs, idle batch waits member]
      simp
    · exact job?_settled_of_ne jobs same found

theorem Effect.keepsLines (effect : k.Effect who k') : k.KeepsLines k' := by
  cases effect <;> assumption

theorem Effect.awaits (effect : k.Effect who k') {starter : Starter} {batch : Nat}
    (waits : k.Awaits starter batch) (member : k.workspace.scheduler.HasMember batch) :
    k'.Awaits starter batch := by
  cases starter with
  | host => trivial
  | line id => exact effect.keepsLines.waits id batch waits member
  | script entry =>
    obtain ⟨job, found, mine, wait⟩ := waits
    exact ⟨job, effect.job?_eq found wait member, mine, wait⟩

end Kernel

end LineScript
