import LineScript.Proofs.Input.Desk
import LineScript.Proofs.Kernel.Lineage

/-!
# Kernels that are left to themselves

What happens as long as nothing is stopped, no line is given up and the host starts no scripts. Then
each read that is open has somebody who waits for it (`Held`), and each batch with members left has
a line or a script that waits for it (`Rooted`). So once the lines of the host are over no script
is left, and no read is open (`Tended.jobs_nil`, `Tended.readers_nil`).
-/

namespace LineScript

open Note (Inner)

/-! ## Reads that are open -/

namespace Line

variable {ws last : Workspace} {notes : List Note} {wait : Wait} {ticket : Nat}

/-- Between two waits a line leaves no read of its own open. -/
theorem Talks.readers (talks : Talks ws notes last) (mem : ticket ∈ last.readers) :
    ticket ∈ ws.readers := by
  induction talks with
  | nil => exact mem
  | apart _ apart ih =>
    rw [apart.readers] at mem
    exact ih mem
  | @atOnce _ mid _ _ _ _ ih =>
    have kept : ticket ∈ (mid.readers ++ [mid.requests]).filter (· != mid.requests) := mem
    obtain ⟨there, other⟩ := List.mem_filter.mp kept
    refine ih ((List.mem_append.mp there).resolve_right fun mine => ?_)
    exact bne_iff_ne.mp other (List.mem_singleton.mp mine)

theorem Comes.readers (comes : Comes ws notes wait last) (mem : ticket ∈ last.readers) :
    ticket ∈ ws.readers ∨ wait = .input ticket := by
  cases comes with
  | other talks _ => exact .inl (talks.readers mem)
  | @input _ before talks =>
    have there : ticket ∈ before.readers ++ [before.requests] := mem
    rcases List.mem_append.mp there with old | new
    · exact .inl (talks.readers old)
    · rw [List.mem_singleton.mp new]
      exact .inr rfl

theorem Talks.inner (talks : Talks ws notes last) : Inner notes := by
  induction talks with
  | nil => exact Note.inner_nil
  | apart _ _ ih => exact ih.snoc rfl
  | atOnce _ _ _ ih => exact (ih.snoc rfl).snoc rfl

theorem Comes.inner (comes : Comes ws notes wait last) : Inner notes := by
  cases comes with
  | other talks _ => exact talks.inner
  | input talks => exact talks.inner.snoc rfl

end Line

theorem Wait.readers_resume {ws : Workspace} {wait : Wait} {ticket : Nat}
    (mem : ticket ∈ (wait.resume ws).readers) : ticket ∈ ws.readers ∧ wait ≠ .input ticket := by
  cases wait with
  | input mine =>
    have kept : ticket ∈ ws.readers.filter (· != mine) := mem
    obtain ⟨there, other⟩ := List.mem_filter.mp kept
    refine ⟨there, ?_⟩
    rintro ⟨⟩
    simp at other
  | _ => exact ⟨mem, nofun⟩

theorem Wait.inner_answered (ws : Workspace) (wait : Wait) : Inner (wait.answered ws) := by
  cases wait with
  | input ticket => exact Note.inner_nil.snoc rfl
  | _ => exact Note.inner_nil

/-- A line that goes on has read what it has waited for. -/
theorem LineState.readers_here {state : LineState} {ws : Workspace} {ticket : Nat}
    (mem : ticket ∈ (state.here ws).readers) :
    ticket ∈ ws.readers ∧ state.wait? ≠ some (.input ticket) := by
  cases state with
  | suspended s =>
    obtain ⟨there, other⟩ := Wait.readers_resume mem
    exact ⟨there, fun same => other (Option.some.inj same)⟩
  | _ => exact ⟨mem, nofun⟩

theorem Job.readers_here {job : Job} {ws : Workspace} {ticket : Nat}
    (mem : ticket ∈ (job.here ws).readers) :
    ticket ∈ ws.readers ∧ job.phase.wait? ≠ some (.input ticket) := by
  unfold here at mem
  cases phase : job.phase with
  | waiting s =>
    rw [phase] at mem
    obtain ⟨there, other⟩ := Wait.readers_resume mem
    exact ⟨there, fun same => other (Option.some.inj same)⟩
  | _ =>
    rw [phase] at mem
    exact ⟨mem, nofun⟩

namespace Kernel

variable {k k' : Kernel} {notes : List Note} {who : Starter} {begun : List Begun}

theorem pollLine_jobs (k : Kernel) (id : Nat) : (k.pollLine id).jobs = k.jobs := by
  unfold pollLine
  split
  · exact settleLine_jobs ..
  · split
    · exact settleLine_jobs ..
    · rfl
  · exact (callReady_same _).jobs
  · rfl

/-! ### What happens -/

theorem Happens.inner (happens : k.Happens notes k') : Inner notes := by
  cases happens with
  | @line _ state _ _ _ _ advances =>
    refine Note.Inner.append ?_ ?_
    · cases state with
      | suspended s => exact s.wait.inner_answered _
      | unstarted text => exact Note.inner_nil.snoc rfl
      | _ => exact Note.inner_nil
    · cases advances with
      | waits comes => exact comes.inner
      | ends talks => exact talks.inner.snoc rfl
  | @job _ job _ _ _ _ advances =>
    refine Note.Inner.append ?_ ?_
    · unfold Job.entry
      cases job.phase with
      | waiting s => exact s.wait.inner_answered _
      | _ => exact Note.inner_nil
    · cases advances with
      | waits comes => exact comes.inner
      | ends talks => exact talks.inner
  | _ => exact Note.inner_nil.snoc rfl

/-- All lines of the host are over. -/
def LinesDone (k : Kernel) : Prop :=
  ∀ line ∈ k.lines, ∃ evaluation, line.state = .finished evaluation

theorem LinesDone.of_nil (none : k.lines = []) : k.LinesDone := by
  intro line mem
  rw [none] at mem
  cases mem

/-- Lines that are over stay as they are. -/
theorem LinesDone.happens (done : k.LinesDone) (happens : k.Happens notes k') :
    k'.LinesDone := by
  have same : k'.lines = k.lines := by
    cases happens with
    | aside _ _ lines => exact lines
    | line found goesOn _ =>
      obtain ⟨line, mem, rfl⟩ := mem_of_line? found
      obtain ⟨evaluation, finished⟩ := done line mem
      rw [finished] at goesOn
      cases goesOn
    | job _ _ _ => rfl
    | rest _ _ _ _ => rfl
    | receive => exact receive_lines k
    | beginRound => exact beginRound_lines k
  rw [LinesDone, same]
  exact done

/-- For each read that is open there is somebody who waits for it. -/
def Held (k : Kernel) : Prop :=
  ∀ ticket ∈ k.workspace.readers, ∃ party, k.wait? party = some (.input ticket)

theorem Held.of_nil (none : k.workspace.readers = []) : k.Held := by
  intro ticket mem
  rw [none] at mem
  cases mem

/-- Nobody stops waiting. -/
theorem Held.of_waits (h : k.Held) (readers : k'.workspace.readers = k.workspace.readers)
    (waits : ∀ party wait, k.wait? party = some wait → k'.wait? party = some wait) :
    k'.Held := by
  intro ticket mem
  obtain ⟨party, wait⟩ := h ticket (readers ▸ mem)
  exact ⟨party, waits party _ wait⟩

/-- Only one party goes on. Of the reads that are open it may have started the one that it waits
for, and the one that it has waited for is over. -/
theorem Held.of_party (h : k.Held) (party : Party)
    (others : ∀ other wait, other ≠ party → k.wait? other = some wait →
      k'.wait? other = some wait)
    (readers : ∀ ticket ∈ k'.workspace.readers,
      ticket ∈ k.workspace.readers ∧ k.wait? party ≠ some (.input ticket) ∨
        k'.wait? party = some (.input ticket)) : k'.Held := by
  intro ticket mem
  rcases readers ticket mem with ⟨old, free⟩ | mine
  · obtain ⟨other, waits⟩ := h ticket old
    refine ⟨other, others other _ ?_ waits⟩
    rintro rfl
    exact free waits
  · exact ⟨party, mine⟩

theorem wait?_of_line? {id : Nat} {state : LineState} (found : k.line? id = some state) :
    k.wait? (.line id) = state.wait? :=
  congrArg (·.bind LineState.wait?) found

theorem wait?_of_job? {generation : Nat} {job : Job} (found : k.job? generation = some job) :
    k.wait? (.job generation) = job.phase.wait? :=
  congrArg (·.bind fun job => job.phase.wait?) found

theorem LinesDone.wait?_eq_none (done : k.LinesDone) (id : Nat) :
    k.wait? (.line id) = none := by
  cases found : k.line? id with
  | none => exact congrArg (·.bind LineState.wait?) found
  | some state =>
    obtain ⟨line, mem, rfl⟩ := mem_of_line? found
    obtain ⟨evaluation, same⟩ := done line mem
    rw [wait?_of_line? found, same]
    rfl

theorem wait?_congr (jobs : k'.jobs = k.jobs) (lines : k'.lines = k.lines) (party : Party) :
    k'.wait? party = k.wait? party := by
  cases party with
  | line id => exact wait?_line_congr lines id
  | job generation =>
    unfold wait? job?
    rw [jobs]

/-- The turn of a line changes nothing for the others who wait. -/
theorem wait?_settleLine_of_ne {id : Nat} {run : Run Evaluation} {party : Party}
    (ne : party ≠ .line id) : (k.settleLine id run).wait? party = k.wait? party := by
  cases party with
  | line other =>
    have other_ne : other ≠ id := fun same => ne (congrArg Party.line same)
    exact congrArg (·.bind LineState.wait?) (line?_settleLine other_ne)
  | job generation =>
    unfold wait? job?
    rw [settleLine_jobs]

theorem wait?_settleJob_of_ne {generation : Nat} {polled : Option Job × Workspace} {party : Party}
    {wait : Wait} (ne : party ≠ .job generation) (waits : k.wait? party = some wait) :
    (k.settleJob generation polled).wait? party = some wait := by
  cases party with
  | line id => exact waits
  | job other =>
    have other_ne : other ≠ generation := fun same => ne (congrArg Party.job same)
    obtain ⟨job, found, here⟩ := Option.bind_eq_some_iff.mp waits
    have still : (k.settleJob generation polled).job? other = some job :=
      job?_settled_of_ne rfl other_ne found
    exact Option.bind_eq_some_iff.mpr ⟨job, still, here⟩

/-- A job that is left by its turn waits for what it waits for. -/
theorem wait?_settleJob {generation : Nat} {job : Job} {ws : Workspace}
    (mine : job.generation = generation) :
    (k.settleJob generation (some job, ws)).wait? (.job generation) = job.phase.wait? := by
  have settled : (k.settleJob generation (some job, ws)).job? generation = some job := by
    refine (job?_settled rfl).trans ?_
    simp [mine]
  exact wait?_of_job? settled

theorem Held.line (h : k.Held) {id : Nat} {state : LineState} {run : Run Evaluation}
    (found : k.line? id = some state)
    (advances : Line.Advances (state.here k.workspace) run notes) :
    (k.settleLine id run).Held := by
  refine h.of_party (.line id) ?_ ?_
  · intro other wait ne waits
    rwa [wait?_settleLine_of_ne ne]
  · intro ticket mem
    rw [settleLine_workspace] at mem
    rw [wait?_of_line? found]
    cases advances with
    | @waits _ wait mid next comes =>
      rcases comes.readers mem with old | new
      · exact .inl (LineState.readers_here old)
      · right
        have settled : (k.settleLine id (.await wait mid next)).line? id =
            some (.suspended ⟨wait, next⟩) := by
          refine (line?_setLine id).trans ?_
          simp [found]
        rw [wait?_of_line? settled, new]
        rfl
    | @ends _ last _ talks =>
      have same : last.endRequest.readers = last.readers := by
        unfold Workspace.endRequest
        by_cases one : last.busy = 1 <;> simp [one, Workspace.push]
      have there : ticket ∈ last.endRequest.readers := mem
      rw [same] at there
      exact .inl (LineState.readers_here (talks.readers there))

theorem Held.job (h : k.Held) {generation : Nat} {job : Job} {run : Run Ticked}
    (found : k.job? generation = some job)
    (advances : job.Advances k.workspace (job.here k.workspace) run notes) :
    (k.settleJob generation (job.settle k.workspace run)).Held := by
  refine h.of_party (.job generation) (fun _ _ => wait?_settleJob_of_ne) ?_
  intro ticket mem
  rw [wait?_of_job? found]
  cases advances with
  | @waits _ wait mid next comes =>
    rcases comes.readers mem with old | new
    · exact .inl (Job.readers_here old)
    · right
      have named := generation_of_job? found
      have mine : ({ job with phase := .waiting ⟨wait, next⟩ } : Job).generation = generation :=
        named
      have settled : job.settle k.workspace (.await wait mid next) =
          (some { job with phase := .waiting ⟨wait, next⟩ }, mid) := rfl
      rw [settled, wait?_settleJob mine, new]
      rfl
  | ends talks => exact .inl (Job.readers_here (talks.readers mem))

/-- As long as nothing is stopped and no line is given up, each read that is open has somebody who
waits for it. -/
theorem Held.happens (h : k.Held) (happens : k.Happens notes k') : k'.Held := by
  cases happens with
  | aside apart jobs lines =>
    refine h.of_waits apart.readers fun party wait waits => ?_
    rwa [wait?_congr jobs lines]
  | line found _ advances => exact h.line found advances
  | job found _ advances => exact h.job found advances
  | @rest generation job job' ws found apart rests waits =>
    refine h.of_party (.job generation) (fun _ _ => wait?_settleJob_of_ne) ?_
    intro ticket mem
    have mine : job'.generation = generation := by
      rw [← generation_of_job? found, Job.generation, Job.generation, rests.inst]
    have after : (k.settleJob generation (some job', ws)).wait? (.job generation) =
        k.wait? (.job generation) := by
      rw [wait?_settleJob mine, waits, wait?_of_job? found]
    have old : ticket ∈ k.workspace.readers := apart.readers ▸ mem
    rw [after]
    by_cases same : k.wait? (.job generation) = some (.input ticket)
    · exact .inr same
    · exact .inl ⟨old, same⟩
  | receive =>
    refine h.of_waits (by rw [receive_workspace]) ?_
    intro party wait waits
    cases party with
    | line id => rwa [wait?_line_congr k.receive_lines]
    | job generation =>
      obtain ⟨job, found, here⟩ := Option.bind_eq_some_iff.mp waits
      have still : k.receive.job? generation = some job := by
        unfold job? at found ⊢
        rw [receive_jobs, List.find?_append, found]
        rfl
      rw [wait?_of_job? still]
      exact here
  | beginRound =>
    refine h.of_waits (by rw [beginRound_workspace]) ?_
    intro party wait waits
    cases party with
    | line id => rwa [wait?_line_congr k.beginRound_lines]
    | job generation =>
      obtain ⟨job, found, here⟩ := Option.bind_eq_some_iff.mp waits
      have still : k.beginRound.job? generation = some job.rise := by
        rw [job?_risen k.beginRound_jobs, found]
        rfl
      rw [wait?_of_job? still, ← here]
      unfold Job.rise
      cases phase : job.phase with
      | resting =>
        simp only [phase] at here
        cases here
      | _ => simp [phase, Phase.isResting]

/-! ## Scripts that are left -/

/-- For each batch with members left there is a line that waits for it, or a script of an earlier
batch. -/
def Rooted (k : Kernel) : Prop :=
  ∀ e ∈ k.workspace.scheduler.active, (∃ id, k.Awaits (.line id) e.batch) ∨
    ∃ starter : Active, starter.batch < e.batch ∧ k.Awaits (.script starter) e.batch

/-- The host starts no scripts. -/
theorem Rooted.turn (h : k.Rooted) (attended : k.Attended begun) (turn : k.Turn who k')
    (host : who = .host → k'.workspace.scheduler = k.workspace.scheduler) : k'.Rooted := by
  have effect := attended.effect turn
  intro e mem
  rcases effect.active_cases mem with before | ⟨later, awaits⟩
  · have member : k.workspace.scheduler.HasMember e.batch := ⟨e, before, rfl⟩
    rcases h e before with ⟨id, waits⟩ | ⟨starter, earlier, waits⟩
    · exact .inl ⟨id, effect.awaits waits member⟩
    · exact .inr ⟨starter, earlier, effect.awaits waits member⟩
  · cases who with
    | host =>
      rw [host rfl] at mem
      have bound := attended.driven.sound.batch_le e mem
      omega
    | line id => exact .inl ⟨id, awaits⟩
    | script starter =>
      -- The script was active before the turn, so its batch is not the new one.
      refine .inr ⟨starter, ?_, awaits⟩
      cases turn with
      | @pollJob job found =>
        have active := attended.registered job.inst
          (List.mem_append_right _ (List.mem_map_of_mem (List.mem_of_find?_eq_some found)))
        have bound := attended.driven.sound.batch_le _ active
        omega

/-- If no line waits for a batch, no script is left: the one of the earliest batch would have a
starter. -/
theorem Rooted.active_nil (h : k.Rooted) (attended : k.Attended begun)
    (free : ∀ id batch, ¬ k.Awaits (.line id) batch) : k.workspace.scheduler.active = [] := by
  have none : ∀ batch, ∀ e ∈ k.workspace.scheduler.active, e.batch ≠ batch := by
    intro batch
    -- By induction on the batch: whoever has started it is in an earlier one, and active.
    induction batch using Nat.strongRecOn with
    | ind batch ih =>
      rintro e mem rfl
      rcases h e mem with ⟨id, waits⟩ | ⟨starter, earlier, job, found, rfl, -⟩
      · exact free id e.batch waits
      · have active := attended.registered job.inst
          (List.mem_append_right _ (List.mem_map_of_mem (List.mem_of_find?_eq_some found)))
        exact ih _ earlier _ active rfl
  exact List.eq_nil_iff_forall_not_mem.mpr fun e mem => none e.batch e mem rfl

/-- Nothing was stopped, no line was given up and the host has started no scripts. -/
structure Tended (k : Kernel) : Prop where
  attended : ∃ begun, k.Attended begun
  rooted : k.Rooted

theorem Fresh.tended (fresh : k.Fresh) : k.Tended where
  attended := ⟨[], fresh.attended⟩
  rooted := by
    intro e mem
    rw [fresh.scheduler] at mem
    cases mem

theorem Tended.turn (h : k.Tended) (turn : k.Turn who k')
    (host : who = .host → k'.workspace.scheduler = k.workspace.scheduler) : k'.Tended := by
  obtain ⟨begun, attended⟩ := h.attended
  exact ⟨⟨_, attended.turn turn⟩, h.rooted.turn attended turn host⟩

theorem Tended.not_cancelled (h : k.Tended) (id : Nat) (s : Suspended Evaluation) :
    k.line? id ≠ some (.cancelled s) := by
  intro found
  obtain ⟨begun, attended⟩ := h.attended
  obtain ⟨line, mem, same⟩ := mem_of_line? found
  have given := attended.lines line mem
  rw [same] at given
  exact given

/-- What happens by itself starts no scripts for the host. -/
theorem Tended.proceed (h : k.Tended) (proceed : k.Proceed k') : k'.Tended := by
  cases proceed with
  | pollLine id => exact h.turn (.pollLine id) (by simp)
  | receive => exact h.turn .receive fun _ => by rw [receive_workspace]
  | pollJob generation =>
    cases found : k.job? generation with
    | none =>
      simpa only [pollJob, found] using h
    | some job =>
      obtain rfl := generation_of_job? found
      exact h.turn (.pollJob found) (by simp)
  | beginRound => exact h.turn .beginRound fun _ => by rw [beginRound_workspace]
  | passTo time => exact h.turn (.passTo time) fun _ => by rw [(k.passTo_same time).workspace]
  | reorder same => exact h.turn (.reorder same) fun _ => by rw [same.workspace]

theorem Tended.proceeds (h : k.Tended) (proceeds : k.Proceeds k') : k'.Tended := by
  induction proceeds with
  | refl => exact h
  | tail _ step ih => exact ih.proceed step

/-- With its lines over, a kernel has no scripts. -/
theorem Tended.jobs_nil (h : k.Tended) (done : k.LinesDone) : k.jobs = [] := by
  obtain ⟨begun, attended⟩ := h.attended
  have active := h.rooted.active_nil attended fun id batch waits => by
    rw [Awaits, done.wait?_eq_none id] at waits
    cases waits
  refine List.eq_nil_iff_forall_not_mem.mpr fun job mem => ?_
  have registered := attended.registered job.inst
    (List.mem_append_right _ (List.mem_map_of_mem mem))
  rw [active] at registered
  cases registered

/-- With its lines over, nobody reads. -/
theorem Tended.readers_nil (h : k.Tended) (held : k.Held) (done : k.LinesDone) :
    k.workspace.readers = [] := by
  refine List.eq_nil_iff_forall_not_mem.mpr fun ticket mem => ?_
  obtain ⟨party, waits⟩ := held ticket mem
  cases party with
  | line id =>
    rw [done.wait?_eq_none id] at waits
    cases waits
  | job generation =>
    unfold wait? job? at waits
    rw [h.jobs_nil done] at waits
    cases waits

/-! ## Who nests lines without end -/

theorem line?_of_mem (numbered : k.Numbered) {line : OpenLine} (mem : line ∈ k.lines) :
    k.line? line.id = some line.state := by
  have some : (k.lines.find? (·.id == line.id)).isSome = true :=
    List.find?_isSome.mpr ⟨line, mem, beq_self_eq_true _⟩
  obtain ⟨first, found⟩ := Option.isSome_iff_exists.mp some
  have same : first.id = line.id := by simpa using List.find?_some found
  obtain rfl := List.inj_on_of_nodup_map numbered (List.mem_of_find?_eq_some found) mem same
  exact congrArg (Option.map _) found

/-- Lines stay as they are, but for one that goes on. -/
theorem Tended.proceed_lines (h : k.Tended) (proceed : k.Proceed k') :
    k'.lines = k.lines ∨ ∃ id state run, k.line? id = some state ∧ state.isLost = false ∧
      k'.lines = (k.settleLine id run).lines := by
  cases proceed with
  | pollLine id =>
    unfold pollLine
    cases found : k.line? id with
    | none => exact .inl rfl
    | some state =>
      cases state with
      | unstarted text => exact .inr ⟨id, _, _, found, rfl, rfl⟩
      | suspended s =>
        dsimp only
        split
        · exact .inr ⟨id, _, _, found, rfl, rfl⟩
        · exact .inl rfl
      | cancelled s => exact (h.not_cancelled id s found).elim
      | finished evaluation => exact .inl rfl
      | lost => exact .inl rfl
  | receive => exact .inl (receive_lines k)
  | pollJob generation =>
    left
    unfold pollJob
    split <;> rfl
  | beginRound => exact .inl (beginRound_lines k)
  | passTo time => exact .inl (k.passTo_same time).lines
  | reorder same => exact .inl same.lines

/-- No line comes or goes. -/
theorem Tended.proceed_ids (h : k.Tended) (proceed : k.Proceed k') :
    k'.lines.map (·.id) = k.lines.map (·.id) := by
  rcases h.proceed_lines proceed with same | ⟨id, state, run, -, -, settled⟩
  · rw [same]
  · rw [settled, settleLine_lines, List.map_map]
    refine List.map_congr_left fun line _ => ?_
    rw [Function.comp_apply]
    split <;> rfl

theorem Tended.proceeds_ids (h : k.Tended) (proceeds : k.Proceeds k') :
    k'.lines.map (·.id) = k.lines.map (·.id) := by
  induction proceeds with
  | refl => rfl
  | tail proceeds step ih => exact ((h.proceeds proceeds).proceed_ids step).trans ih

/-- A line that is lost stays. -/
theorem Tended.lost_line_stays (h : k.Tended) (numbered : k.Numbered) (proceed : k.Proceed k')
    {line : OpenLine} (mem : line ∈ k.lines) (lost : line.state.isLost = true) :
    line ∈ k'.lines := by
  rcases h.proceed_lines proceed with same | ⟨id, state, run, found, lasts, settled⟩
  · rwa [same]
  · rw [settled, settleLine_lines]
    refine List.mem_map.mpr ⟨line, mem, if_neg ?_⟩
    rintro rfl
    rw [line?_of_mem numbered mem] at found
    rw [Option.some.inj found, lasts] at lost
    cases lost

/-- A script that is lost stays. -/
theorem Tended.lost_job_stays (h : k.Tended) (proceed : k.Proceed k') {job : Job}
    (mem : job ∈ k.jobs) (lost : job.phase.isLost = true) : job ∈ k'.jobs := by
  obtain ⟨begun, attended⟩ := h.attended
  have phase : job.phase = .lost := by
    cases phase : job.phase with
    | lost => rfl
    | _ => rw [phase] at lost; cases lost
  cases proceed with
  | pollLine id => rwa [pollLine_jobs]
  | receive =>
    exact mem_receive_jobs.mpr (.inl mem)
  | pollJob generation =>
    cases found : k.job? generation with
    | none => simpa only [pollJob, found] using mem
    | some other =>
      simp only [pollJob, found]
      by_cases mine : job.generation = generation
      · -- Of one generation there is one job, and its turns come to nothing.
        obtain ⟨d₀, d, fresh, ⟨events, run⟩, follows⟩ := attended.driven
        have there := List.mem_of_find?_eq_some found
        have same : other.generation = job.generation := by
          rw [generation_of_job? found, mine]
        obtain rfl := List.inj_on_of_nodup_map (follows.nodup (run.custody fresh.custody)) there mem
          same
        have stays : other.poll k.workspace = (some other, k.workspace) := by
          rw [other.poll_of_current (attended.current mem), Job.proceed, phase]
        rw [stays]
        exact List.mem_append_right _ (List.mem_singleton_self _)
      · exact List.mem_append_left _ (List.mem_filter.mpr ⟨mem, bne_iff_ne.mpr mine⟩)
  | beginRound =>
    have risen : job.rise = job := by
      unfold Job.rise
      rw [phase]
      rfl
    exact mem_beginRound_jobs.mpr ⟨job, mem, risen⟩
  | passTo time => rwa [(k.passTo_same time).jobs]
  | reorder same => exact same.jobs ▸ mem

/-- Whoever nests lines without end does not stop. -/
theorem Tended.survives_of_proceed (h : k.Tended) (numbered : k.Numbered)
    (proceed : k.Proceed k') (survives : k'.Survives) : k.Survives where
  lines := by
    intro line mem
    by_contra lost
    rw [Bool.not_eq_false] at lost
    have still := survives.lines line (h.lost_line_stays numbered proceed mem lost)
    rw [lost] at still
    cases still
  jobs := by
    refine List.any_eq_false.mpr fun job mem lost => ?_
    exact List.any_eq_false.mp survives.jobs job (h.lost_job_stays proceed mem lost) lost

theorem Tended.survives_of_linesDone (h : k.Tended) (done : k.LinesDone) : k.Survives := by
  refine ⟨fun line mem => ?_, ?_⟩
  · obtain ⟨evaluation, same⟩ := done line mem
    rw [same]
    rfl
  · rw [isLost, h.jobs_nil done]
    rfl

theorem Tended.survives_of_proceeds (h : k.Tended) (numbered : k.Numbered)
    (proceeds : k.Proceeds k') (survives : k'.Survives) : k.Survives := by
  induction proceeds with
  | refl => exact survives
  | tail proceeds step ih =>
    have numbered' : Numbered _ := (congrArg List.Nodup (h.proceeds_ids proceeds)).mpr numbered
    exact ih ((h.proceeds proceeds).survives_of_proceed numbered' step survives)

end Kernel

end LineScript
