import LineScript.Proofs.Kernel.Ledger

/-!
# Messages arrive in order

What was drained and what still waits is all that was sent, in the order in which it was sent, and
no drain cuts a parcel in two. This holds of every ledger, and every move of a kernel can be
written down in one (`Sound.exists_step`), so it holds of every kernel, whatever its commands are.
A tick that comes to its end has sent all that its line has said, however deep and however long it
waited, as one parcel, if its instance was registered then, and nothing of it otherwise; a line of
the host has sent all that it has said as one parcel.

`Ledger.Sound` ties the record to the kernel: the trails are those of the lines that wait, and the
drains fall between parcels.
-/

namespace LineScript

open Parcel (contents Notices)

/-! ## What was drained -/

namespace Parcel

variable {sent ps : List Parcel} {drained : List (List Message)} {pending : List Message}

/-- Each list that was drained holds whole parcels, and the other parcels wait. -/
def Delivered (sent : List Parcel) (drained : List (List Message)) (pending : List Message) :
    Prop :=
  ∃ (groups : List (List Parcel)) (rest : List Parcel),
    sent = groups.flatten ++ rest ∧ drained = groups.map contents ∧ pending = contents rest

theorem contents_flatten (groups : List (List Parcel)) :
    contents groups.flatten = (groups.map contents).flatten := by
  induction groups with
  | nil => rfl
  | cons group rest ih =>
    rw [List.flatten_cons, contents_append, ih, List.map_cons, List.flatten_cons]

/-- Nothing is lost, repeated or out of order. -/
theorem Delivered.flatten_append (h : Delivered sent drained pending) :
    drained.flatten ++ pending = contents sent := by
  obtain ⟨groups, rest, rfl, rfl, rfl⟩ := h
  rw [contents_append, contents_flatten]

/-- Parcels are sent. -/
theorem Delivered.send (h : Delivered sent drained pending) (ps : List Parcel) :
    Delivered (sent ++ ps) drained (pending ++ contents ps) := by
  obtain ⟨groups, rest, rfl, rfl, rfl⟩ := h
  exact ⟨groups, rest ++ ps, List.append_assoc .., rfl, (contents_append rest ps).symm⟩

theorem Delivered.send_of_eq {after : List Message} (h : Delivered sent drained pending)
    (waits : after = pending ++ contents ps) : Delivered (sent ++ ps) drained after :=
  waits ▸ h.send ps

/-- All that waits is drained. -/
theorem Delivered.drain (h : Delivered sent drained pending) :
    Delivered sent (drained ++ [pending]) [] := by
  obtain ⟨groups, rest, rfl, rfl, rfl⟩ := h
  exact ⟨groups ++ [rest], [], by simp, by simp, rfl⟩

end Parcel

/-! ## Trails and what waits -/

/-- The trail is that of the tick that the job is in. -/
def Job.Trails (job : Job) (t : Trail) : Prop :=
  ∀ s, job.phase = .waiting s → job.inst.source[job.inst.counter]? = some t.line ∧
    ∃ mid next, t.Reaches (some job.inst) (.await s.wait mid next) ∧
      ∀ ws, s.next ws = job.inst.rest (next ws)

/-- The trail is that of the line. -/
def LineState.Trails (state : LineState) (t : Trail) : Prop :=
  ∀ s, state = .suspended s → ∃ mid next, t.Reaches none (.await s.wait mid next) ∧
    ∀ ws, s.next ws = Line.rest (next ws)

namespace Job

variable {job job' : Job} {t : Trail} {ws : Workspace}

theorem trails_of_wait?_eq_none (idle : job.phase.wait? = none) : job.Trails t := by
  intro s waiting
  rw [waiting] at idle
  cases idle

theorem Rests.trails (rests : job.Rests job') (trails : job.Trails t) : job'.Trails t := by
  rcases rests.phase with same | idle
  · intro s waiting
    rw [same] at waiting
    rw [rests.inst]
    exact trails s waiting
  · exact trails_of_wait?_eq_none idle

theorem rise_trails (trails : job.Trails t) : job.rise.Trails t := by
  unfold rise
  split
  · exact trails_of_wait?_eq_none rfl
  · exact trails

/-- A job goes on from where its trail has led, or it has no line to go on with. -/
theorem goesOn_of_run? {run : Run Ticked} (trails : job.Trails t)
    (goesOn : job.run? ws = some run) :
    (∃ trail evaluation, job.trail? t ws = some trail ∧
      trail.Reaches (some job.inst) evaluation ∧ run = job.inst.rest evaluation) ∨
    job.inst.source[job.inst.counter]? = none ∧ run = .done ⟨job.inst, .ended .completed⟩ ws := by
  obtain ⟨current, ⟨due, rfl⟩ | ⟨s, waiting, elapsed, rfl⟩⟩ := run?_cases goesOn
  · cases here : job.inst.source[job.inst.counter]? with
    | none =>
      right
      simp only [Instance.tick, here, and_self]
    | some line =>
      left
      refine ⟨⟨line, ws, []⟩, _, ?_, .here _, Instance.tick_eq_rest here ws⟩
      simp [trail?, isStale, current, due, here]
  · obtain ⟨-, mid, next, reaches, rest⟩ := trails s waiting
    left
    refine ⟨t.go ws, _, ?_, reaches.go ws, rest ws⟩
    simp [trail?, isStale, current, waiting, elapsed]

/-- The trail of a job that goes on is that of the line that its instance is on. -/
theorem line_of_trail? {trail : Trail} (trails : job.Trails t)
    (goesOn : job.trail? t ws = some trail) :
    job.inst.source[job.inst.counter]? = some trail.line := by
  obtain ⟨-, ⟨line, -, here, rfl⟩ | ⟨s, waiting, -, rfl⟩⟩ := trail?_cases goesOn
  · exact here
  · exact (trails s waiting).1

/-- A job that has a trail goes on with what is left of the line. -/
theorem run?_of_trail? {trail : Trail} {evaluation : Run Line.Ended} (trails : job.Trails t)
    (goesOn : job.trail? t ws = some trail) (reaches : trail.Reaches (some job.inst) evaluation) :
    job.run? ws = some (job.inst.rest evaluation) := by
  obtain ⟨current, ⟨line, due, here, rfl⟩ | ⟨s, waiting, elapsed, rfl⟩⟩ := trail?_cases goesOn
  · rw [reaches.unique (.here _), ← Instance.tick_eq_rest here ws]
    simp [run?, isStale, current, due]
  · obtain ⟨-, mid, next, before, rest⟩ := trails s waiting
    rw [reaches.unique (before.go ws), ← rest ws]
    simp [run?, isStale, current, waiting, elapsed]

/-- What is left of a job that has gone on has the trail. -/
theorem settle_trails {trail : Trail} {evaluation : Run Line.Ended}
    (here : job.inst.source[job.inst.counter]? = some trail.line)
    (reaches : trail.Reaches (some job.inst) evaluation)
    (left : (job.settle ws (job.inst.rest evaluation)).1 = some job') : job'.Trails trail := by
  cases evaluation with
  | done e before =>
    have fresh : job'.phase = .fresh := by
      revert left
      show (job.settle ws (.done _ _)).1 = some job' → _
      generalize (job.inst.conclude e before).1 = ticked
      obtain ⟨i, outcome⟩ := ticked
      cases outcome with
      | running =>
        intro left
        cases left
        rfl
      | ended reason => exact nofun
      | cancelled => exact nofun
    apply trails_of_wait?_eq_none
    rw [fresh]
    rfl
  | await wait mid next =>
    cases left
    intro s waiting
    cases waiting
    exact ⟨here, mid, next, reaches, fun _ => rfl⟩
  | endless =>
    cases left
    exact trails_of_wait?_eq_none rfl

/-- A job that has gone on is known by the same generation. -/
theorem settle_generation {evaluation : Run Line.Ended}
    (acts : Line.ActsFor (some job.inst) Line.Ended.owner ws evaluation)
    (left : (job.settle ws (job.inst.rest evaluation)).1 = some job') :
    job'.generation = job.generation := by
  cases evaluation with
  | done e before =>
    have same : (job.inst.conclude e before).1.inst.generation = job.inst.generation := by
      cases acts with
      | done final =>
        obtain ⟨i, owner, same⟩ := Option.map_eq_some_iff.mp final.2
        exact congrArg Active.generation (Instance.Concludes.decided e i owner same).ending.entry_eq
    revert left same
    show (job.settle ws (.done _ _)).1 = some job' → _
    generalize (job.inst.conclude e before).1 = ticked
    obtain ⟨i, outcome⟩ := ticked
    cases outcome with
    | running =>
      intro left same
      cases left
      exact same
    | ended reason => exact nofun
    | cancelled => exact nofun
  | await wait mid next =>
    cases left
    rfl
  | endless =>
    cases left
    rfl

theorem rise_of_run? {run : Run Ticked} (goesOn : job.run? ws = some run) : job.rise = job := by
  obtain ⟨-, ⟨due, -⟩ | ⟨s, waiting, -, -⟩⟩ := run?_cases goesOn
  · simp [rise, due, Phase.isResting]
  · simp [rise, waiting, Phase.isResting]

/-- A job whose tick is over is not in it any more. -/
theorem not_mem_settleJob {k : Kernel} {ticked : Ticked} {last : Workspace} {run : Run Ticked}
    (goesOn : job.run? ws = some run) :
    job ∉ (k.settleJob job.generation (job.settle ws (.done ticked last))).jobs := by
  intro mem
  rcases List.mem_append.mp mem with old | new
  · exact absurd rfl (bne_iff_ne.mp (List.mem_filter.mp old).2)
  · have left := Option.mem_toList.mp new
    obtain ⟨i, outcome⟩ := ticked
    cases outcome with
    | running =>
      have fresh : job.phase = .fresh := congrArg Job.phase (Option.some.inj left).symm
      obtain ⟨-, ⟨due, -⟩ | ⟨s, waiting, -, -⟩⟩ := run?_cases goesOn
      · cases fresh.symm.trans due
      · cases fresh.symm.trans waiting
    | ended reason => cases left
    | cancelled => cases left

end Job

namespace LineState

variable {state : LineState} {t : Trail} {ws : Workspace}

theorem trails_of_ne (other : ∀ s, state ≠ .suspended s) : state.Trails t :=
  fun s same => absurd same (other s)

/-- A line goes on from where its trail has led. -/
theorem goesOn_of_run? {run : Run Evaluation} (trails : state.Trails t)
    (goesOn : state.run? ws = some run) :
    ∃ trail evaluation, state.trail? t ws = some trail ∧ trail.Reaches none evaluation ∧
      run = Line.rest evaluation := by
  obtain ⟨text, rfl, rfl⟩ | ⟨s, rfl, elapsed, rfl⟩ := run?_cases goesOn
  · exact ⟨_, _, rfl, .here _, Line.runRequest_eq_rest text ws⟩
  · obtain ⟨mid, next, reaches, rest⟩ := trails s rfl
    exact ⟨t.go ws, _, if_pos elapsed, reaches.go ws, rest ws⟩

theorem run?_of_trail? {trail : Trail} {evaluation : Run Line.Ended} (trails : state.Trails t)
    (goesOn : state.trail? t ws = some trail) (reaches : trail.Reaches none evaluation) :
    state.run? ws = some (Line.rest evaluation) := by
  obtain ⟨text, rfl, rfl⟩ | ⟨s, rfl, elapsed, rfl⟩ := trail?_cases goesOn
  · rw [reaches.unique (.here _), ← Line.runRequest_eq_rest text ws]
    rfl
  · obtain ⟨mid, next, before, rest⟩ := trails s rfl
    rw [reaches.unique (before.go ws), ← rest ws]
    exact if_pos elapsed

theorem after_trails {trail : Trail} {evaluation : Run Line.Ended}
    (reaches : trail.Reaches none evaluation) :
    (LineState.after (Line.rest evaluation)).Trails trail := by
  cases evaluation with
  | done e before => exact trails_of_ne nofun
  | await wait mid next =>
    intro s same
    cases same
    exact ⟨mid, next, reaches, fun _ => rfl⟩
  | endless => exact trails_of_ne nofun

end LineState

/-! ## Ledgers in order -/

namespace Ledger

variable {l l' : Ledger}

/-- The trails are those of the lines and ticks that wait, and each list that was drained holds
whole parcels; those that nobody has drained wait. -/
structure Sound (l : Ledger) : Prop where
  jobs : ∀ job ∈ l.kernel.jobs, job.Trails (l.ticks job.generation)
  lines : ∀ line ∈ l.kernel.lines, line.state.Trails (l.lines line.id)
  delivered : Parcel.Delivered l.sent l.drained l.workspace.pending

theorem sound_of_fresh {k : Kernel} (fresh : k.Fresh) (silent : k.workspace.pending = []) :
    (of k).Sound where
  jobs := by simp [of, fresh.jobs]
  lines := by simp [of, fresh.lines]
  delivered := ⟨[], [], rfl, rfl, silent⟩

theorem trails_settleJob {k : Kernel} {generation : Nat} {polled : Option Job × Workspace}
    {ticks ticks' : Nat → Trail} (others : ∀ job ∈ k.jobs, job.Trails (ticks job.generation))
    (same : ∀ other, other ≠ generation → ticks' other = ticks other)
    (mine : ∀ job', polled.1 = some job' → job'.Trails (ticks' job'.generation)) :
    ∀ job' ∈ (k.settleJob generation polled).jobs, job'.Trails (ticks' job'.generation) := by
  intro job' mem
  rcases List.mem_append.mp mem with old | new
  · obtain ⟨old, other⟩ := List.mem_filter.mp old
    rw [same _ (bne_iff_ne.mp other)]
    exact others job' old
  · exact mine job' (Option.mem_toList.mp new)

theorem Sound.trails (sound : l.Sound) {generation : Nat} {job : Job}
    (found : l.kernel.job? generation = some job) : job.Trails (l.ticks generation) :=
  Kernel.generation_of_job? found ▸ sound.jobs job (List.mem_of_find?_eq_some found)

/-- What a move sends comes behind all that was sent. -/
theorem Sound.delivered_step (sound : l.Sound) (step : l.Step l') :
    Parcel.Delivered l'.sent l'.drained l'.workspace.pending := by
  cases step with
  | @host said k' handled _ _ =>
    have waits : k'.workspace.pending = l.workspace.pending ++ contents [.notice said] := by
      simpa using handled.pending
    exact sound.delivered.send_of_eq waits
  | @drain k' workspace _ _ =>
    have empty : k'.workspace.pending = [] := by
      rw [workspace]
      rfl
    exact empty ▸ sound.delivered.drain
  | @line id state trail run ps _ goesOn _ goes =>
    have waits := goes.pending_rest (LineState.pending_here goesOn)
    refine sound.delivered.send_of_eq ?_
    show (l.kernel.settleLine id (Line.rest run)).workspace.pending = _
    rw [Kernel.settleLine_workspace, show l.kernel.workspace = l.workspace from rfl, waits]
  | tick _ goesOn reaches goes =>
    have acts := reaches.actsFor
    rw [Job.here_eq goesOn] at acts goes
    exact sound.delivered.send_of_eq (Job.pending_settle acts goes)
  | @exhausted generation job _ _ _ =>
    have waits : (l.workspace.finish job.inst).pending = l.workspace.pending ++
        contents [.notice (l.workspace.scheduler.finish job.inst).2] := by
      simpa using l.workspace.pending_finish job.inst
    exact sound.delivered.send_of_eq waits
  | @rest _ _ _ ws _ _ handled _ =>
    have waits : ws.pending = l.workspace.pending := by simpa using handled.pending
    exact waits.symm ▸ sound.delivered
  | receive =>
    show Parcel.Delivered _ _ l.kernel.receive.workspace.pending
    rw [Kernel.receive_workspace]
    exact sound.delivered
  | beginRound =>
    show Parcel.Delivered _ _ l.kernel.beginRound.workspace.pending
    rw [Kernel.beginRound_workspace]
    exact sound.delivered

/-- After a move the trails are those of the lines that wait. -/
theorem Sound.lines_step (sound : l.Sound) (step : l.Step l') :
    ∀ line ∈ l'.kernel.lines, line.state.Trails (l'.lines line.id) := by
  cases step with
  | host _ _ lines =>
    intro line mem
    rcases lines.waits line mem with old | other
    · exact sound.lines line old
    · exact LineState.trails_of_ne other
  | drain _ _ lines => exact lines ▸ sound.lines
  | @line id state trail run ps _ _ reaches _ =>
    intro other mem
    show other.state.Trails (Function.update l.lines id trail other.id)
    rcases Kernel.mem_settleLine mem with ⟨old, ne⟩ | ⟨mine, after⟩
    · rw [Function.update_of_ne ne]
      exact sound.lines other old
    · rw [mine, after, Function.update_self]
      exact LineState.after_trails reaches
  | receive => exact l.kernel.receive_lines ▸ sound.lines
  | beginRound => exact l.kernel.beginRound_lines ▸ sound.lines
  | _ => exact sound.lines

/-- After a move the trails are those of the ticks that wait. -/
theorem Sound.jobs_step (sound : l.Sound) (step : l.Step l') :
    ∀ job ∈ l'.kernel.jobs, job.Trails (l'.ticks job.generation) := by
  cases step with
  | host _ jobs _ => exact jobs ▸ sound.jobs
  | drain _ jobs _ => exact jobs ▸ sound.jobs
  | line _ _ _ _ =>
    rw [Kernel.settleLine_jobs]
    exact sound.jobs
  | @tick generation job trail run ps found goesOn reaches _ =>
    have acts := reaches.actsFor
    rw [Job.here_eq goesOn] at acts
    apply trails_settleJob sound.jobs (fun _ ne => Function.update_of_ne ne _ _)
    intro job' left
    show job'.Trails (Function.update l.ticks generation trail job'.generation)
    rw [Job.settle_generation acts left, Kernel.generation_of_job? found, Function.update_self]
    exact Job.settle_trails (Job.line_of_trail? (sound.trails found) goesOn) reaches left
  | exhausted _ _ _ => exact trails_settleJob sound.jobs (fun _ _ => rfl) nofun
  | @rest _ job _ _ found _ _ rests =>
    apply trails_settleJob sound.jobs (fun _ _ => rfl)
    intro job' same
    have rests := rests job' same
    have mine : job'.generation = job.generation := congrArg Instance.generation rests.inst
    rw [mine]
    exact rests.trails (sound.jobs job (List.mem_of_find?_eq_some found))
  | receive =>
    intro job mem
    rcases Kernel.mem_receive_jobs.mp mem with old | ⟨i, -, rfl⟩
    · exact sound.jobs job old
    · exact Job.trails_of_wait?_eq_none rfl
  | beginRound =>
    intro job mem
    obtain ⟨old, hold, rfl⟩ := Kernel.mem_beginRound_jobs.mp mem
    have mine : old.rise.generation = old.generation :=
      congrArg Instance.generation old.rise_inst
    rw [mine]
    exact Job.rise_trails (sound.jobs old hold)

/-- A move leaves the record in order. -/
theorem Sound.step (sound : l.Sound) (step : l.Step l') : l'.Sound :=
  ⟨sound.jobs_step step, sound.lines_step step, sound.delivered_step step⟩

theorem Sound.steps (sound : l.Sound) (steps : l.Steps l') : l'.Sound := by
  induction steps with
  | refl => exact sound
  | tail _ step ih => exact ih.step step

/-! ## Every move is recorded -/

theorem Sound.lineTrails (sound : l.Sound) {id : Nat} {state : LineState}
    (found : l.kernel.line? id = some state) : state.Trails (l.lines id) := by
  obtain ⟨line, mem, rfl, rfl⟩ := Kernel.exists_line_of_line? found
  exact sound.lines line mem

/-- There is no move that a ledger cannot record. -/
theorem Sound.exists_step (sound : l.Sound) {k' : Kernel} (move : l.kernel.Move k') :
    ∃ l', l.Step l' ∧ l'.kernel = k' := by
  cases move.motion with
  | host handled jobs lines => exact ⟨_, .host handled jobs lines, rfl⟩
  | drain workspace jobs lines => exact ⟨_, .drain workspace jobs lines, rfl⟩
  | line found goesOn =>
    obtain ⟨trail, evaluation, leads, reaches, rfl⟩ :=
      LineState.goesOn_of_run? (sound.lineTrails found) goesOn
    obtain ⟨ps, goes⟩ := reaches.actsFor.goes _ _
    exact ⟨_, .line found leads reaches goes, rfl⟩
  | job found goesOn =>
    rcases Job.goesOn_of_run? (sound.trails found) goesOn with
      ⟨trail, evaluation, leads, reaches, rfl⟩ | ⟨none, rfl⟩
    · obtain ⟨ps, goes⟩ := reaches.actsFor.goes _ _
      exact ⟨_, .tick found leads reaches goes, rfl⟩
    · exact ⟨_, .exhausted found goesOn none, rfl⟩
  | rest found idle handled rests => exact ⟨_, .rest found idle handled rests, rfl⟩
  | receive => exact ⟨_, .receive, rfl⟩
  | beginRound => exact ⟨_, .beginRound, rfl⟩

theorem exists_steps {k₀ k : Kernel} (fresh : k₀.Fresh) (silent : k₀.workspace.pending = [])
    (moves : k₀.Moves k) : ∃ l, (of k₀).Steps l ∧ l.kernel = k := by
  induction moves with
  | refl => exact ⟨_, .refl, rfl⟩
  | tail _ move ih =>
    obtain ⟨l, steps, rfl⟩ := ih
    have sound := (sound_of_fresh fresh silent).steps steps
    obtain ⟨l', step, here⟩ := sound.exists_step move
    exact ⟨l', steps.tail step, here⟩

/-! ## Lines that come to their end -/

/-- With this move the tick of a job is over. -/
structure EndsTick (l l' : Ledger) (job : Job) (ticked : Ticked) (last : Workspace) : Prop where
  found : l.kernel.job? job.generation = some job
  line : job.inst.source[job.inst.counter]? ≠ none
  ends : job.run? l.workspace = some (.done ticked last)
  kernel : l'.kernel = l.kernel.pollJob job.generation

/-- With this move a line of the host is over. -/
structure EndsLine (l l' : Ledger) (id : Nat) (state : LineState) (evaluation : Evaluation)
    (last : Workspace) : Prop where
  found : l.kernel.line? id = some state
  ends : state.run? l.workspace = some (.done evaluation last)
  kernel : l'.kernel = l.kernel.pollLine id

/-- The move sends all that was said in the tick, from the beginning of the line that the instance
is on and over all its waits, as one parcel between notices, if the instance is registered now. If
it is not, the move sends notices only. -/
def SendsTick (l l' : Ledger) (job : Job) (ticked : Ticked) (last : Workspace) : Prop :=
  ∃ (trail : Trail) (e : Line.Ended) (before : Workspace) (first after : List Parcel),
    job.trail? (l.ticks job.generation) l.workspace = some trail ∧
    job.inst.source[job.inst.counter]? = some trail.line ∧
    (trail.run (some job.inst)).finish trail.found = some ⟨e, before, []⟩ ∧
    job.inst.conclude e before = (ticked, last) ∧
    Notices first ∧ Notices after ∧
    l'.sent = l.sent ++ (first ++
      (if before.isCurrent job.inst then [.tick job.generation e.transcript] else []) ++ after)

/-- The move sends all that was said in the line, from its beginning and over all its waits, as one
parcel between notices. -/
def SendsLine (l l' : Ledger) (id : Nat) (state : LineState) (evaluation : Evaluation) : Prop :=
  ∃ (trail : Trail) (e : Line.Ended) (before : Workspace) (first after : List Parcel),
    state.trail? (l.lines id) l.workspace = some trail ∧
    (trail.run none).finish trail.found = some ⟨e, before, []⟩ ∧ e.evaluation = evaluation ∧
    Notices first ∧ Notices after ∧
    l'.sent = l.sent ++ (first ++ [.line id e.transcript] ++ after)

/-- A job that is in its tick stays, unless it goes on. -/
theorem Step.tick_of_ends {job : Job} {ticked : Ticked} {last : Workspace} (step : l.Step l')
    (ends : l.EndsTick l' job ticked last) :
    ∃ trail run ps, job.trail? (l.ticks job.generation) l.workspace = some trail ∧
      trail.Reaches (some job.inst) run ∧
      Line.Goes (some job.inst.name) trail.here [] job.inst.closing run ps ∧
      l'.sent = l.sent ++ ps := by
  have mem : job ∈ l.kernel.jobs := List.mem_of_find?_eq_some ends.found
  have gone : job ∉ l'.kernel.jobs := by
    rw [ends.kernel, Kernel.pollJob_of_run? ends.found ends.ends]
    exact Job.not_mem_settleJob ends.ends
  have other : ∀ {generation : Nat} {polled : Option Job × Workspace},
      job ∉ (l.kernel.settleJob generation polled).jobs → generation = job.generation := by
    intro generation polled gone
    by_contra ne
    exact gone (List.mem_append_left _ (List.mem_filter.mpr ⟨mem, bne_iff_ne.mpr (Ne.symm ne)⟩))
  cases step with
  | host _ jobs _ => exact absurd (jobs ▸ mem) gone
  | drain _ jobs _ => exact absurd (jobs ▸ mem) gone
  | line _ _ _ _ =>
    apply absurd mem
    rw [← l.kernel.settleLine_jobs]
    exact gone
  | tick found goesOn reaches goes =>
    cases other gone
    rw [ends.found] at found
    cases found
    exact ⟨_, _, _, goesOn, reaches, goes, rfl⟩
  | exhausted found _ none =>
    cases other gone
    rw [ends.found] at found
    cases found
    exact absurd none ends.line
  | rest found idle _ _ =>
    cases other gone
    rw [ends.found] at found
    cases found
    rw [ends.ends] at idle
    cases idle
  | receive =>
    exact absurd (Kernel.mem_receive_jobs.mpr (.inl mem)) gone
  | beginRound =>
    exact absurd (Kernel.mem_beginRound_jobs.mpr ⟨job, mem, Job.rise_of_run? ends.ends⟩) gone

/-- A line is over only when it has gone on. -/
theorem Step.line_of_ends {id : Nat} {state : LineState} {evaluation : Evaluation}
    {last : Workspace} (step : l.Step l') (ends : l.EndsLine l' id state evaluation last) :
    ∃ trail run ps, state.trail? (l.lines id) l.workspace = some trail ∧
      trail.Reaches none run ∧
      Line.Goes none trail.here state.opening (Line.closing id) run ps ∧
      l'.sent = l.sent ++ ps := by
  have closed : l'.kernel.line? id = some (.finished evaluation) := by
    rw [ends.kernel, Kernel.pollLine_of_run? ends.found ends.ends]
    show (l.kernel.setLine id (.finished evaluation) last).line? id = _
    rw [Kernel.line?_setLine, ends.found]
    simp
  have before : l.kernel.line? id ≠ some (.finished evaluation) := by
    intro finished
    have ended := ends.ends
    rw [Option.some.inj (ends.found.symm.trans finished)] at ended
    cases ended
  have same : l'.kernel.lines ≠ l.kernel.lines := by
    intro lines
    exact before (Kernel.line?_congr lines id ▸ closed)
  cases step with
  | host _ _ lines => exact absurd (lines.finished id evaluation closed) before
  | drain _ _ lines => exact absurd lines same
  | @line other _ _ _ _ found goesOn reaches goes =>
    by_cases mine : other = id
    · subst mine
      rw [ends.found] at found
      cases found
      exact ⟨_, _, _, goesOn, reaches, goes, rfl⟩
    · rw [Kernel.line?_settleLine (Ne.symm mine)] at closed
      exact absurd closed before
  | tick _ _ _ _ => exact absurd rfl same
  | exhausted _ _ _ => exact absurd rfl same
  | rest _ _ _ _ => exact absurd rfl same
  | receive => exact absurd l.kernel.receive_lines same
  | beginRound => exact absurd l.kernel.beginRound_lines same

/-- What a tick has said is sent with its end. -/
theorem Sound.sendsTick (sound : l.Sound) (step : l.Step l') {job : Job} {ticked : Ticked}
    {last : Workspace} (ends : l.EndsTick l' job ticked last) :
    l.SendsTick l' job ticked last := by
  obtain ⟨trail, run, ps, leads, reaches, goes, sent⟩ := step.tick_of_ends ends
  have trails := sound.trails ends.found
  have closed : job.inst.rest run = .done ticked last :=
    Option.some.inj ((Job.run?_of_trail? trails leads reaches).symm.trans ends.ends)
  cases goes with
  | @ends e before ps leg =>
    have concluded : job.inst.conclude e before = (ticked, last) := by
      simp only [Instance.rest, Run.bind, Run.done.injEq] at closed
      exact Prod.ext closed.1 closed.2
    refine ⟨trail, e, before, ps, ticked.farewell last, leads, Job.line_of_trail? trails leads,
      reaches.finish, concluded, leg.notices, ticked.farewell_notices last, ?_⟩
    rw [sent, Instance.closing, concluded]
    simp [Instance.block, Job.generation]
  | waits _ => cases closed
  | endless => cases closed

/-- What a line of the host has said is sent with its end. -/
theorem Sound.sendsLine (sound : l.Sound) (step : l.Step l') {id : Nat} {state : LineState}
    {evaluation : Evaluation} {last : Workspace} (ends : l.EndsLine l' id state evaluation last) :
    l.SendsLine l' id state evaluation := by
  obtain ⟨trail, run, ps, leads, reaches, goes, sent⟩ := step.line_of_ends ends
  have closed : Line.rest run = .done evaluation last :=
    Option.some.inj
      ((LineState.run?_of_trail? (sound.lineTrails ends.found) leads reaches).symm.trans ends.ends)
  cases goes with
  | @ends e before ps leg =>
    have same : e.evaluation = evaluation := by
      simp only [Line.rest, Run.bind, Run.done.injEq] at closed
      exact closed.1
    refine ⟨trail, e, before, state.opening ++ ps, [.notice before.endNotice], leads,
      reaches.finish, same, state.opening_notices.append leg.notices,
      Parcel.notices_singleton _, ?_⟩
    rw [sent, Line.closing]
    simp
  | waits _ => cases closed
  | endless => cases closed

/-- A move with which no line is over sends notices only. -/
theorem Sound.notices (sound : l.Sound) (step : l.Step l')
    (tick : ∀ job ticked last, ¬ l.EndsTick l' job ticked last)
    (line : ∀ id state evaluation last, ¬ l.EndsLine l' id state evaluation last) :
    ∃ ps, Notices ps ∧ l'.sent = l.sent ++ ps := by
  have nothing : l.sent = l.sent ++ [] := (List.append_nil _).symm
  cases step with
  | host => exact ⟨_, Parcel.notices_singleton _, rfl⟩
  | drain => exact ⟨[], nofun, nothing⟩
  | @line id state trail run ps found leads reaches goes =>
    have goesOn := LineState.run?_of_trail? (sound.lineTrails found) leads reaches
    cases goes with
    | ends leg =>
      exact absurd ⟨found, goesOn, (Kernel.pollLine_of_run? found goesOn).symm⟩ (line id state _ _)
    | waits leg => exact ⟨_, state.opening_notices.append leg.notices, rfl⟩
    | endless => exact ⟨[], nofun, rfl⟩
  | @tick generation job trail run ps found leads reaches goes =>
    have trails := sound.trails found
    have goesOn := Job.run?_of_trail? trails leads reaches
    cases goes with
    | ends leg =>
      have mine := Kernel.generation_of_job? found
      subst mine
      have here : job.inst.source[job.inst.counter]? ≠ none := by
        rw [Job.line_of_trail? trails leads]
        simp
      exact absurd ⟨found, here, goesOn, (Kernel.pollJob_of_run? found goesOn).symm⟩ (tick job _ _)
    | waits leg => exact ⟨_, leg.notices, rfl⟩
    | endless => exact ⟨[], nofun, rfl⟩
  | exhausted => exact ⟨_, Parcel.notices_singleton _, rfl⟩
  | rest => exact ⟨[], nofun, nothing⟩
  | receive => exact ⟨[], nofun, nothing⟩
  | beginRound => exact ⟨[], nofun, nothing⟩

/-- Messages arrive once and in order, and lines are heard in one piece. At every point of every
run:

* all that was drained and then all that waits is what was sent, in the order in which it was sent,
  and each list that was drained holds whole parcels;
* each move that the kernel can make is recorded;
* a tick that comes to its end sends all that it has said as one parcel, if its instance is
  registered then, and nothing of it otherwise;
* a line of the host that comes to its end sends all that it has said as one parcel;
* no other move sends what was said in a tick or a line. -/
theorem messages_arrive_in_order {k₀ : Kernel} (fresh : k₀.Fresh)
    (silent : k₀.workspace.pending = []) (steps : (of k₀).Steps l) :
    (l.drained.flatten ++ l.workspace.pending = contents l.sent ∧
      Parcel.Delivered l.sent l.drained l.workspace.pending) ∧
    (∀ k', l.kernel.Move k' → ∃ l', l.Step l' ∧ l'.kernel = k') ∧
    (∀ l', l.Step l' → ∀ job ticked last,
      l.EndsTick l' job ticked last → l.SendsTick l' job ticked last) ∧
    (∀ l', l.Step l' → ∀ id state evaluation last,
      l.EndsLine l' id state evaluation last → l.SendsLine l' id state evaluation) ∧
    (∀ l', l.Step l' → (∀ job ticked last, ¬ l.EndsTick l' job ticked last) →
      (∀ id state evaluation last, ¬ l.EndsLine l' id state evaluation last) →
      ∃ ps, Notices ps ∧ l'.sent = l.sent ++ ps) := by
  have sound := (sound_of_fresh fresh silent).steps steps
  exact ⟨⟨sound.delivered.flatten_append, sound.delivered⟩, fun _ move => sound.exists_step move,
    fun _ step _ _ _ ends => sound.sendsTick step ends,
    fun _ step _ _ _ _ ends => sound.sendsLine step ends,
    fun _ step tick line => sound.notices step tick line⟩

/-- A kernel with a script that says something. -/
def silence : Kernel :=
  .withParts .isolated (.memory ⟨[("a", "print hello")]⟩) .recording (.ofCommands [Builtin.print])

/-- The script has started and its tick is due. -/
def speech : Kernel :=
  match silence.start ["a"] with
  | .ok (_, k) => (k.receive.pollJob 1).beginRound
  | .error _ => silence

theorem silence_moves_speech : silence.Moves speech := by
  unfold speech
  split
  · rename_i started k ok
    have round : k.Moves (k.receive.pollJob 1).beginRound :=
      ((Relation.ReflTransGen.single .receive).tail (.pollJob 1)).tail .beginRound
    exact round.head (.start ok)
  · exact .refl

/-- A script says what it has to say and ends: the list with it, what it says and the list without
it wait in this order. -/
theorem speech_arrives_in_order :
    ∃ l l' job ticked last, (of silence).Steps l ∧ l.Step l' ∧ l.EndsTick l' job ticked last ∧
      l.SendsTick l' job ticked last ∧
      l'.workspace.pending = [.scripts ["a"], .output "hello\n" {}, .scripts []] := by
  have due : (speech.job? 1).map (fun job => (job.generation, job.inst.source[job.inst.counter]?)) =
        some (1, some "print hello") ∧
      (((speech.job? 1).bind (·.run? speech.workspace)).bind (·.finish [])).isSome = true := by
    decide +kernel
  have heard : (speech.pollJob 1).workspace.pending =
      [.scripts ["a"], .output "hello\n" {}, .scripts []] := by
    decide +kernel
  obtain ⟨job, found, eq⟩ := Option.map_eq_some_iff.mp due.1
  obtain ⟨generation, line⟩ := Prod.mk.inj eq
  obtain ⟨l, steps, here⟩ := exists_steps (Kernel.withParts_fresh ..) rfl silence_moves_speech
  obtain ⟨-, records, ticks, -⟩ :=
    messages_arrive_in_order (Kernel.withParts_fresh ..) rfl steps
  obtain ⟨l', step, there⟩ := records _ (.pollJob 1)
  rw [here] at there
  have closed := due.2
  rw [found, Option.bind_some] at closed
  obtain ⟨r, finished⟩ := Option.isSome_iff_exists.mp closed
  obtain ⟨run, goesOn, finish⟩ := Option.bind_eq_some_iff.mp finished
  have ends : l.EndsTick l' job r.value r.last := by
    rw [Run.eq_done_of_finish finish] at goesOn
    refine ⟨?_, ?_, ?_, ?_⟩
    · rw [generation, here, found]
    · simp [line]
    · rw [workspace, here, goesOn]
    · rw [generation, here, there]
  refine ⟨l, l', job, r.value, r.last, steps, step, ends, ticks l' step _ _ _ ends, ?_⟩
  rw [workspace, there]
  exact heard

end Ledger

end LineScript
