import LineScript.Proofs.Input.Talk

/-!
# Lines and jobs that go on

What happens to requests and reads when a line of the host or a job has its turn. First comes what
makes it go on: its request begins, or its read has been answered (`entry`, and `here` is the
workspace after that). Then it goes on to its next wait or to its end (`Line.Advances`,
`Job.Advances`). Whatever waits goes on in this way (`Converses`).
-/

namespace LineScript

/-! ## Lines of the host -/

namespace LineState

/-- The request of the line has begun and is not over. -/
def isInFlight : LineState → Bool
  | .suspended _ => true
  | .cancelled _ => true
  | _ => false

def isLost : LineState → Bool
  | .lost => true
  | _ => false

end LineState

namespace Wait

/-- What happens when the wait is over: who waits for input has got a line. -/
def answered (ws : Workspace) : Wait → List Note
  | .input ticket =>
    [⟨some (.gets ticket (ws.inputs.headD "")), [.input (ws.busy == 0)]⟩]
  | _ => []

/-- What happens when nobody waits any more. -/
def abandoned : Wait → List Note
  | .input ticket => [⟨some (.leaves ticket), []⟩]
  | _ => []

theorem dealt_answered {ws : Workspace} {wait : Wait} (elapsed : wait.isOver ws = true) :
    ws.Dealt (wait.answered ws) (wait.resume ws) := by
  cases wait with
  | input ticket =>
    obtain ⟨first, some⟩ := Bool.and_eq_true_iff.mp elapsed
    refine .single (.gets first ?_)
    cases inputs : ws.inputs with
    | nil => simp [inputs] at some
    | cons line others => rfl
  | _ => exact .nil

theorem dealt_abandoned (ws : Workspace) (wait : Wait) :
    ws.Dealt wait.abandoned (wait.abandon ws) := by
  cases wait with
  | input ticket => exact .single (.leaves ticket)
  | _ => exact .nil

end Wait

/-! ## Reads and the counter -/

theorem Wait.busy_resume (ws : Workspace) (wait : Wait) : (wait.resume ws).busy = ws.busy := by
  cases wait <;> rfl

theorem Wait.busy_abandon (ws : Workspace) (wait : Wait) : (wait.abandon ws).busy = ws.busy := by
  cases wait <;> rfl

namespace Line

variable {ws last : Workspace} {notes : List Note} {wait : Wait}

theorem Talks.busy (talks : Talks ws notes last) : last.busy = ws.busy := by
  induction talks with
  | nil => rfl
  | apart _ apart ih => exact apart.busy.trans ih
  | atOnce _ _ _ ih => exact ih

theorem Comes.busy (comes : Comes ws notes wait last) : last.busy = ws.busy := by
  cases comes with
  | other talks _ => exact talks.busy
  | input talks => exact talks.busy

end Line

/-! ## Lines that go on -/

namespace LineState

/-- What happens first when the line goes on. -/
def entry (state : LineState) (ws : Workspace) : List Note :=
  match state with
  | .unstarted _ => [⟨some .begins, [.input false]⟩]
  | .suspended s => s.wait.answered ws
  | _ => []

/-- The workspace after that. -/
def here (state : LineState) (ws : Workspace) : Workspace :=
  match state with
  | .unstarted _ => ws.beginRequest
  | .suspended s => s.wait.resume ws
  | _ => ws

/-- What is left of a line that waits reads as lines do. -/
def Converses : LineState → Prop
  | .suspended s => ∀ ws, s.wait.isOver ws = true → Line.Talk (s.wait.resume ws) (s.next ws)
  | _ => True

end LineState

/-- What happens from there to the next wait of a line of the host, or to its end. -/
inductive Line.Advances (here : Workspace) : Run Evaluation → List Note → Prop where
  | waits {notes : List Note} {wait : Wait} {mid : Workspace} {next : Workspace → Run Evaluation}
      (comes : Comes here notes wait mid) : Advances here (.await wait mid next) notes
  | ends {notes : List Note} {before : Workspace} {evaluation : Evaluation}
      (talks : Talks here notes before) : Advances here (.done evaluation before.endRequest)
        (notes ++ [⟨some .settles, before.endNotice⟩])

namespace Line

variable {here ws : Workspace} {run : Run Evaluation} {notes : List Note}

theorem Advances.dealt (advances : Advances here run notes) (flight : 0 < here.busy) :
    here.Dealt notes (run.left ws) := by
  cases advances with
  | waits comes => exact comes.dealt
  | ends talks =>
    refine talks.dealt.snoc (.settles ?_)
    rwa [talks.busy]

theorem Advances.busy (ws : Workspace) (advances : Advances here run notes)
    (flight : 0 < here.busy) :
    (run.left ws).busy + 1 = here.busy + (LineState.after run).isInFlight.toNat := by
  cases advances with
  | waits comes => exact congrArg (· + 1) comes.busy
  | @ends _ before _ talks =>
    have busy := talks.busy
    show before.endRequest.busy + 1 = here.busy
    rw [before.busy_endRequest]
    omega

/-- A line that does something is not lost. -/
theorem Advances.lasts (advances : Advances here run notes) :
    (LineState.after run).isLost = false := by
  cases advances <;> rfl

end Line

namespace LineState

variable {state : LineState} {ws : Workspace} {run : Run Evaluation}

theorem dealt_entry (goesOn : state.run? ws = some run) :
    ws.Dealt (state.entry ws) (state.here ws) := by
  obtain ⟨text, rfl, -⟩ | ⟨s, rfl, elapsed, -⟩ := run?_cases goesOn
  · exact .single .begins
  · exact Wait.dealt_answered elapsed

theorem busy_here (goesOn : state.run? ws = some run) :
    (state.here ws).busy + state.isInFlight.toNat = ws.busy + 1 := by
  obtain ⟨text, rfl, -⟩ | ⟨s, rfl, -, -⟩ := run?_cases goesOn
  · rfl
  · exact congrArg (· + 1) (Wait.busy_resume ws s.wait)

/-- A line that goes on reads as lines do, and so does what is left of it. -/
theorem Converses.advances (converses : state.Converses) (goesOn : state.run? ws = some run)
    (ends : (after run).isLost = false) :
    ∃ notes, Line.Advances (state.here ws) run notes ∧ (after run).Converses := by
  have talk : Line.Talk (state.here ws) run := by
    obtain ⟨text, rfl, rfl⟩ | ⟨s, rfl, elapsed, rfl⟩ := run?_cases goesOn
    · exact Line.runRequest_talks text ws
    · exact converses ws elapsed
  cases talk with
  | done final =>
    obtain ⟨notes, before, talks, rfl⟩ := final
    exact ⟨_, .ends talks, trivial⟩
  | await here rest =>
    obtain ⟨notes, comes⟩ := here
    exact ⟨_, .waits comes, rest⟩
  | endless => cases ends

end LineState

/-! ## Jobs that go on -/

namespace Job

/-- What happens first when the job goes on. -/
def entry (job : Job) (ws : Workspace) : List Note :=
  match job.phase with
  | .waiting s => s.wait.answered ws
  | _ => []

/-- The workspace after that. -/
def here (job : Job) (ws : Workspace) : Workspace :=
  match job.phase with
  | .waiting s => s.wait.resume ws
  | _ => ws

/-- What happens when the job is let go. -/
def abandoned (job : Job) : List Note :=
  match job.phase with
  | .waiting s => s.wait.abandoned
  | _ => []

/-- If the job is within a tick, what is left of the tick reads as lines do. -/
def Converses (job : Job) : Prop :=
  ∀ s, job.phase = .waiting s → ∀ ws, s.wait.isOver ws = true →
    Instance.Talk (s.wait.resume ws) (s.next ws)

/-- What happens from there to the next wait of a job, or until the end of its tick is handled. -/
inductive Advances (job : Job) (ws here : Workspace) : Run Ticked → List Note → Prop where
  | waits {notes : List Note} {wait : Wait} {mid : Workspace} {next : Workspace → Run Ticked}
      (comes : Line.Comes here notes wait mid) : Advances job ws here (.await wait mid next) notes
  | ends {notes : List Note} {ticked : Ticked} {last : Workspace}
      (talks : Line.Talks here notes (job.settle ws (.done ticked last)).2) :
      Advances job ws here (.done ticked last) notes

variable {job : Job} {ws : Workspace} {run : Run Ticked}

theorem dealt_entry (goesOn : job.run? ws = some run) : ws.Dealt (job.entry ws) (job.here ws) := by
  obtain ⟨-, ⟨due, -⟩ | ⟨s, waiting, elapsed, -⟩⟩ := run?_cases goesOn
  · simp only [entry, here, due]
    exact .nil
  · simp only [entry, here, waiting]
    exact Wait.dealt_answered elapsed

theorem dealt_abandoned (job : Job) (ws : Workspace) : ws.Dealt job.abandoned (job.abandon ws) := by
  unfold abandoned abandon
  cases job.phase with
  | waiting s => exact Wait.dealt_abandoned ws s.wait
  | _ => exact .nil

theorem converses_of_wait?_eq_none (idle : job.phase.wait? = none) : job.Converses := by
  intro s waiting
  rw [waiting] at idle
  cases idle

/-- The end of a tick is handled without a word about input. -/
theorem apart_settle (job : Job) (ws : Workspace) (ticked : Ticked) (last : Workspace) :
    ∃ said, last.Apart said (job.settle ws (.done ticked last)).2 := by
  obtain ⟨i, outcome⟩ := ticked
  cases outcome with
  | ended reason => exact ⟨_, .finish last i⟩
  | running => exact ⟨_, .refl last⟩
  | cancelled => exact ⟨_, .refl last⟩

theorem busy_here (job : Job) (ws : Workspace) : (job.here ws).busy = ws.busy := by
  unfold here
  cases job.phase with
  | waiting s => exact s.wait.busy_resume ws
  | _ => rfl

theorem busy_abandon (job : Job) (ws : Workspace) : (job.abandon ws).busy = ws.busy := by
  unfold abandon
  cases job.phase with
  | waiting s => exact s.wait.busy_abandon ws
  | _ => rfl

/-- A job goes on after its tick with a fresh phase. -/
theorem fresh_settle (job : Job) {ticked : Ticked} {last : Workspace} {job' : Job}
    (left : (job.settle ws (.done ticked last)).1 = some job') : job'.phase = .fresh := by
  obtain ⟨i, outcome⟩ := ticked
  cases outcome with
  | running =>
    cases left
    rfl
  | ended reason => cases left
  | cancelled => cases left

theorem Advances.dealt {here : Workspace} {notes : List Note}
    (advances : job.Advances ws here run notes) : here.Dealt notes (job.settle ws run).2 := by
  cases advances with
  | waits comes => exact comes.dealt
  | ends talks => exact talks.dealt

theorem Advances.busy {here : Workspace} {notes : List Note}
    (advances : job.Advances ws here run notes) : (job.settle ws run).2.busy = here.busy := by
  cases advances with
  | waits comes => exact comes.busy
  | ends talks => exact talks.busy

/-- A job that does something is not lost. -/
theorem Advances.lasts {here : Workspace} {notes : List Note}
    (advances : job.Advances ws here run notes) {job' : Job}
    (left : (job.settle ws run).1 = some job') : job'.phase.isLost = false := by
  cases advances with
  | waits comes =>
    cases left
    rfl
  | ends talks =>
    rw [job.fresh_settle left]
    rfl

/-- A job that goes on reads as lines do, and so does what is left of it. -/
theorem Converses.advances (converses : job.Converses) (goesOn : job.run? ws = some run)
    (ends : ∀ job', (job.settle ws run).1 = some job' → job'.phase.isLost = false) :
    ∃ notes, job.Advances ws (job.here ws) run notes ∧
      ∀ job', (job.settle ws run).1 = some job' → job'.Converses := by
  have talk : Instance.Talk (job.here ws) run := by
    obtain ⟨-, ⟨due, rfl⟩ | ⟨s, waiting, elapsed, rfl⟩⟩ := run?_cases goesOn
    · simp only [here, due]
      exact job.inst.tick_talks ws
    · simp only [here, waiting]
      exact converses s waiting ws elapsed
  cases talk with
  | @done _ last ticked final =>
    obtain ⟨notes, talks⟩ := final
    obtain ⟨said, apart⟩ := job.apart_settle ws ticked last
    refine ⟨_, .ends (talks.apart apart), ?_⟩
    obtain ⟨i, outcome⟩ := ticked
    intro job' left
    cases outcome with
    | running =>
      cases left
      exact converses_of_wait?_eq_none rfl
    | ended reason => cases left
    | cancelled => cases left
  | await here rest =>
    obtain ⟨notes, comes⟩ := here
    refine ⟨_, .waits comes, ?_⟩
    rintro job' ⟨⟩ s ⟨⟩
    exact rest
  | endless => cases ends _ rfl

end Job

end LineScript
