import LineScript.Kernel
import LineScript.Proofs.Driver.Custody

/-!
# The turns of the kernel are steps of the driver

A kernel takes whole turns: a job runs until it waits or its tick is over, and what comes of the
tick is handled at once. `Follows` relates a kernel to a driver with the same workspace and a unit
for each job, and every turn of a job or of a line can be followed by steps of the driver. What
holds of all runs of a driver therefore holds of a kernel, whichever order it takes its turns in.
-/

namespace LineScript

namespace Driver

/-- Some steps lead from one driver to the other. -/
def Leads (d d' : Driver) : Prop :=
  ∃ events, d.Runs events d'

variable {d d' d'' : Driver}

theorem Leads.refl (d : Driver) : d.Leads d :=
  ⟨[], .nil⟩

theorem Leads.trans (first : d.Leads d') (rest : d'.Leads d'') : d.Leads d'' := by
  obtain ⟨events, run⟩ := first
  obtain ⟨later, run'⟩ := rest
  exact ⟨_, run.append run'⟩

theorem Step.leads {event : Event} (step : d.Step event d') : d.Leads d' :=
  ⟨_, step.runs⟩

theorem Leads.step {event : Event} (first : d.Leads d') (step : d'.Step event d'') :
    d.Leads d'' :=
  first.trans step.leads

/-- What a line does between two waits, step by step; the line is one of a unit, or a bare one. -/
theorem effects_lead (who : Option Instance) (unit : ∀ i, who = some i → i ∈ d.units)
    {ws : Workspace} (effects : Line.Effects (who.map (·.name)) d.workspace ws) :
    d.Leads { d with workspace := ws } := by
  induction effects with
  | refl => exact .refl d
  | @tail before after _ effect ih =>
    cases effect with
    | touch touch =>
      cases who with
      | none => exact ih.step (.aside (.touch touch))
      | some i => exact ih.step (.act (unit i rfl) touch)
    | start ok =>
      obtain ⟨-, scripts, e, -, -, -, eq⟩ := Workspace.startBatch_ok ok
      have sent : after.inbox = before.inbox ++ e.instances := by rw [eq]
      exact ih.step (.start unit ok sent)

end Driver

/-! ## Turns of jobs -/

namespace Job

/-- If the job waits within a tick, the rest of the tick is one of its instance. -/
def Orderly (job : Job) : Prop :=
  ∀ s, job.phase = .waiting s → ∀ ws, job.inst.Ticks ws (s.next ws)

/-- The driver after a turn of a job: the same steps have been done, and the job is still a unit
unless it was let go. -/
structure Followed (d : Driver) (rest : List Instance) (polled : Option Job × Workspace)
    (d' : Driver) : Prop where
  leads : d.Leads d'
  workspace : d'.workspace = polled.2
  units : d'.units.Perm (rest ++ polled.1.toList.map (·.inst))
  outcomes : d'.outcomes = []
  orderly : ∀ job ∈ polled.1.toList, job.Orderly

variable {d : Driver} {job : Job} {rest : List Instance}

/-- A job that stays with its instance, after steps that leave the units alone. -/
theorem followed_of_stays (job' : Job) (same : job'.inst = job.inst) (orderly : job'.Orderly)
    (unit : d.units.Perm (job.inst :: rest)) (idle : d.outcomes = []) {ws : Workspace}
    (leads : d.Leads { d with workspace := ws }) :
    Followed d rest (some job', ws) { d with workspace := ws } where
  leads := leads
  workspace := rfl
  units := by
    show d.units.Perm (rest ++ [job'.inst])
    rw [same]
    exact unit.trans (List.perm_append_singleton _ _).symm
  outcomes := idle
  orderly := by simpa using orderly

/-- The end of a tick and what is done about it. -/
theorem settle_followed (unit : d.units.Perm (job.inst :: rest)) (idle : d.outcomes = [])
    {run : Run Ticked} (ticks : job.inst.Ticks d.workspace run) :
    ∃ d', Followed d rest (job.settle d.workspace run) d' := by
  have member : ∀ i, some job.inst = some i → i ∈ d.units := by
    rintro i ⟨⟩
    exact unit.mem_iff.mpr List.mem_cons_self
  cases ticks with
  | endless =>
    refine ⟨_, followed_of_stays { job with phase := .lost } rfl ?_ unit idle (.refl d)⟩
    intro s waiting
    cases waiting
  | await here next =>
    have effects := Driver.effects_lead (some job.inst) member here
    refine ⟨_, followed_of_stays { job with phase := .waiting _ } rfl ?_ unit idle effects⟩
    intro s waiting
    cases waiting
    exact next
  | @done _ last ticked final =>
    -- The kernel handles the outcome at once; for the driver that is one step more.
    obtain ⟨before, effects, concludes⟩ := final
    let after : Driver :=
      { d with workspace := last, units := rest, outcomes := d.outcomes ++ [ticked] }
    have ended : d.Leads after :=
      (Driver.effects_lead (some job.inst) member effects).step
        (.conclude unit (.concludes concludes))
    have handled : d.Leads (after.handled ticked []) :=
      ended.step (.handle (by simp [after, idle]))
    obtain ⟨i, outcome⟩ := ticked
    cases outcome with
    | running =>
      refine ⟨_, handled, rfl, .refl _, rfl, ?_⟩
      intro job' mem s waiting
      rw [List.mem_singleton.mp mem] at waiting
      cases waiting
    | ended reason =>
      exact ⟨_, handled, rfl, by simp [Driver.handled, settle, after], rfl, by simp [settle]⟩
    | cancelled =>
      exact ⟨_, handled, rfl, by simp [Driver.handled, settle, after], rfl, by simp [settle]⟩

theorem abandon_leads (job : Job) (d : Driver) :
    d.Leads { d with workspace := job.abandon d.workspace } ∧
      (job.abandon d.workspace).scheduler = d.workspace.scheduler := by
  unfold abandon
  cases job.phase with
  | waiting s =>
    have aside : Aside d.workspace (s.wait.abandon d.workspace) := .abandon s.wait
    exact ⟨(Driver.Step.aside aside).leads, aside.frame.1⟩
  | _ => exact ⟨.refl d, rfl⟩

/-- A job whose instance was stopped gives up what it waits for, and its unit is dropped. -/
theorem abandon_followed (unit : d.units.Perm (job.inst :: rest)) (idle : d.outcomes = [])
    (stale : d.workspace.isCurrent job.inst = false) :
    ∃ d', Followed d rest (none, job.abandon d.workspace) d' := by
  obtain ⟨abandons, same⟩ := job.abandon_leads d
  let waived : Driver := { d with workspace := job.abandon d.workspace }
  have gone : waived.workspace.isCurrent job.inst = false := by
    show (job.abandon d.workspace).scheduler.isCurrent _ _ = false
    rw [same]
    exact stale
  let ticked : Ticked := ⟨job.inst, .cancelled⟩
  let after : Driver := { waived with units := rest, outcomes := d.outcomes ++ [ticked] }
  have ended : d.Leads after := abandons.step (.conclude unit (.stale rfl gone))
  have dropped : d.Leads (after.handled ticked []) :=
    ended.step (.handle (by simp [after, idle]))
  exact ⟨_, dropped, rfl, by simp [Driver.handled, ticked, after], rfl, by simp⟩

/-- A turn of a job. -/
theorem poll_followed (orderly : job.Orderly) (unit : d.units.Perm (job.inst :: rest))
    (idle : d.outcomes = []) : ∃ d', Followed d rest (job.poll d.workspace) d' := by
  have stays : ∃ d', Followed d rest (some job, d.workspace) d' :=
    ⟨_, followed_of_stays job rfl orderly unit idle (.refl d)⟩
  unfold poll
  split
  · rename_i condition
    have stale : d.workspace.isCurrent job.inst = false := by
      simpa [isStale] using (Bool.and_eq_true_iff.mp condition).1
    exact abandon_followed unit idle stale
  · unfold proceed
    cases phase : job.phase with
    | fresh =>
      refine ⟨_, followed_of_stays { job with phase := .resting } rfl ?_ unit idle (.refl d)⟩
      intro s waiting
      cases waiting
    | resting => exact stays
    | due => exact settle_followed unit idle (job.inst.tick_ticks d.workspace)
    | waiting s =>
      by_cases done : s.wait.isOver d.workspace = true
      · simp only [done, if_true]
        exact settle_followed unit idle (orderly s phase d.workspace)
      · simp only [done]
        exact ⟨_, followed_of_stays job rfl orderly unit idle
          (Driver.Step.aside (.remain s.wait)).leads⟩
    | lost => exact stays

theorem rise_inst (job : Job) : job.rise.inst = job.inst := by
  unfold rise
  split <;> rfl

theorem rise_orderly (orderly : job.Orderly) : job.rise.Orderly := by
  unfold rise
  split
  · intro s waiting
    cases waiting
  · exact orderly

end Job

/-! ## Turns of lines -/

/-- If the line waits, the rest of it is that of a line that the host runs. -/
def LineState.Orderly : LineState → Prop
  | .suspended s => ∀ ws, Line.Serves ws (s.next ws)
  | _ => True

namespace Kernel

/-- The driver is at work on the same workspace, with a unit for each job. -/
structure Follows (k : Kernel) (d : Driver) : Prop where
  workspace : d.workspace = k.workspace
  units : d.units.Perm (k.jobs.map (·.inst))
  outcomes : d.outcomes = []
  jobs : ∀ job ∈ k.jobs, job.Orderly
  lines : ∀ line ∈ k.lines, line.state.Orderly

/-- A driver that started with nothing can have come to where the kernel is. -/
def Driven (k : Kernel) : Prop :=
  ∃ d₀ d : Driver, d₀.Fresh ∧ d₀.Leads d ∧ k.Follows d

variable {k k' : Kernel}

theorem generation_of_job? {generation : Nat} {job : Job} (found : k.job? generation = some job) :
    job.generation = generation := by
  simpa using List.find?_some found

theorem exists_line_of_line? {id : Nat} {state : LineState} (found : k.line? id = some state) :
    ∃ line ∈ k.lines, line.id = id ∧ line.state = state := by
  obtain ⟨line, first, same⟩ := Option.map_eq_some_iff.mp found
  have named : line.id = id := by simpa using List.find?_some first
  exact ⟨line, List.mem_of_find?_eq_some first, named, same⟩

/-- The jobs and the lines are the same but for lines that are in order anyway. -/
theorem Driven.congr (h : k.Driven) (workspace : k'.workspace = k.workspace)
    (jobs : k'.jobs = k.jobs) (lines : ∀ line ∈ k'.lines, line ∈ k.lines ∨ line.state.Orderly) :
    k'.Driven := by
  obtain ⟨d₀, d, fresh, leads, follows⟩ := h
  refine ⟨d₀, d, fresh, leads, ?_, ?_, follows.outcomes, ?_, ?_⟩
  · rw [workspace]
    exact follows.workspace
  · rw [jobs]
    exact follows.units
  · rw [jobs]
    exact follows.jobs
  · intro line mem
    exact (lines line mem).elim (follows.lines line) id

/-- Steps of the driver that leave the units alone. -/
theorem Driven.steps (h : k.Driven) {ws : Workspace}
    (leads : ∀ d : Driver, d.workspace = k.workspace → d.Leads { d with workspace := ws }) :
    ({ k with workspace := ws } : Kernel).Driven := by
  obtain ⟨d₀, d, fresh, before, follows⟩ := h
  exact ⟨d₀, { d with workspace := ws }, fresh, before.trans (leads d follows.workspace), rfl,
    follows.units, follows.outcomes, follows.jobs, follows.lines⟩

theorem Driven.aside (h : k.Driven) {ws : Workspace} (aside : Aside k.workspace ws) :
    ({ k with workspace := ws } : Kernel).Driven := by
  refine h.steps fun d same => ?_
  rw [← same] at aside
  exact (Driver.Step.aside aside).leads

/-! ### Calls -/

/-- Only the order of the next turns differs. -/
structure Same (k k' : Kernel) : Prop where
  workspace : k'.workspace = k.workspace
  jobs : k'.jobs = k.jobs
  lines : k'.lines = k.lines

theorem enqueue_same (k : Kernel) (worker : Worker) : k.Same (k.enqueue worker) := by
  unfold enqueue
  split <;> exact ⟨rfl, rfl, rfl⟩

theorem call_same (k : Kernel) (party : Party) : k.Same (k.call party) := by
  cases party with
  | line id => exact k.enqueue_same _
  | job generation =>
    have called := enqueue_same
      { k with ready := if generation ∈ k.ready then k.ready else k.ready ++ [generation] } .driver
    exact ⟨called.workspace, called.jobs, called.lines⟩

theorem foldl_call_same (parties : List Party) (k : Kernel) :
    k.Same (parties.foldl call k) := by
  induction parties generalizing k with
  | nil => exact ⟨rfl, rfl, rfl⟩
  | cons party rest ih =>
    have first := k.call_same party
    have others := ih (k.call party)
    exact ⟨others.workspace.trans first.workspace, others.jobs.trans first.jobs,
      others.lines.trans first.lines⟩

theorem callReady_same (k : Kernel) : k.Same k.callReady := by
  have called := foldl_call_same k.able k
  unfold callReady
  dsimp only
  split
  · exact called
  · have waiting := (k.able.foldl call k).enqueue_same .driver
    exact ⟨waiting.workspace.trans called.workspace, waiting.jobs.trans called.jobs,
      waiting.lines.trans called.lines⟩

/-! ### New jobs, jobs that rise, and time that passes -/

theorem receive_workspace (k : Kernel) :
    k.receive.workspace = { k.workspace with inbox := [] } :=
  (callReady_same _).workspace

theorem receive_jobs (k : Kernel) :
    k.receive.jobs = k.jobs ++ k.workspace.inbox.map fun i => { inst := i } :=
  (callReady_same _).jobs

theorem receive_lines (k : Kernel) : k.receive.lines = k.lines :=
  (callReady_same _).lines

/-- A job that is there after the inbox is emptied was there, or it is that of a new instance. -/
theorem mem_receive_jobs {job : Job} :
    job ∈ k.receive.jobs ↔ job ∈ k.jobs ∨ ∃ i ∈ k.workspace.inbox, { inst := i } = job := by
  rw [receive_jobs, List.mem_append, List.mem_map]

theorem beginRound_workspace (k : Kernel) : k.beginRound.workspace = k.workspace :=
  (callReady_same _).workspace

theorem beginRound_jobs (k : Kernel) : k.beginRound.jobs = k.jobs.map Job.rise :=
  (callReady_same _).jobs

theorem beginRound_lines (k : Kernel) : k.beginRound.lines = k.lines :=
  (callReady_same _).lines

theorem mem_beginRound_jobs {job : Job} :
    job ∈ k.beginRound.jobs ↔ ∃ old ∈ k.jobs, old.rise = job := by
  rw [beginRound_jobs, List.mem_map]

/-- When time passes nothing changes but the clock and who is called. -/
theorem passTo_same (k : Kernel) (time : Nat) :
    ({ k with workspace := { k.workspace with now := max k.workspace.now time } } : Kernel).Same
      (k.passTo time) :=
  callReady_same _

theorem moveBack_same (k : Kernel) (party : Party) : k.Same (k.moveBack party) := by
  unfold moveBack
  split <;> exact ⟨rfl, rfl, rfl⟩

theorem Driven.same (h : k.Driven) (same : k.Same k') : k'.Driven :=
  h.congr same.workspace same.jobs fun _ mem => .inl (same.lines ▸ mem)

theorem Driven.callReady (h : k.Driven) : k.callReady.Driven :=
  h.same k.callReady_same

/-! ### Lines -/

theorem Driven.removeLine (h : k.Driven) (id : Nat) : (k.removeLine id).Driven :=
  h.congr rfl rfl fun _ mem => .inl (List.mem_of_mem_filter mem)

theorem Driven.discard (h : k.Driven) (id : Nat) (wait : Wait) : (k.discard id wait).Driven := by
  have abandoned := (h.removeLine id).aside (.abandon wait)
  exact (abandoned.aside .endRequest).callReady

theorem Driven.dropLine (h : k.Driven) (id : Nat) : (k.dropLine id).Driven := by
  unfold Kernel.dropLine
  split
  · exact h.discard id _
  · exact h.discard id _
  · exact h.removeLine id

/-- A line gets a new state, and the workspace comes to where steps of the driver lead. -/
theorem Driven.setLine (h : k.Driven) {id : Nat} {state : LineState} {ws : Workspace}
    (orderly : state.Orderly)
    (leads : ∀ d : Driver, d.workspace = k.workspace → d.Leads { d with workspace := ws }) :
    (k.setLine id state ws).Driven := by
  refine Driven.same ?_ (moveBack_same _ _)
  refine (h.steps leads).congr rfl rfl fun line mem => ?_
  obtain ⟨old, hold, eq⟩ := List.mem_map.mp mem
  split at eq
  · subst eq
    exact .inr orderly
  · subst eq
    exact .inl hold

theorem Driven.cancelLine (h : k.Driven) (id : Nat) : (k.cancelLine id).Driven := by
  unfold Kernel.cancelLine
  split
  · refine (h.setLine (by trivial) fun d same => ?_).callReady
    rw [← same]
    exact .refl d
  · exact h.dropLine id

/-- Where a run leaves a line that the host runs. -/
theorem Driven.settleLine (h : k.Driven) {id : Nat} {start : Workspace} {run : Run Evaluation}
    (begins : ∀ d : Driver, d.workspace = k.workspace → d.Leads { d with workspace := start })
    (serves : Line.Serves start run) : (k.settleLine id run).Driven := by
  have bare : ∀ {ws : Workspace} (d : Driver), d.workspace = k.workspace →
      Line.Effects none start ws → d.Leads { d with workspace := ws } := by
    intro ws d same effects
    have nobody : ∀ i, none = some i → i ∈ ({ d with workspace := start } : Driver).units := by
      simp
    exact (begins d same).trans (Driver.effects_lead none nobody effects)
  cases serves with
  | done final =>
    obtain ⟨before, said, effects, rfl⟩ := final
    refine h.setLine (by trivial) fun d same => ?_
    exact ((bare d same effects).step (.aside (.publish said))).step (.aside .endRequest)
  | await here next => exact h.setLine next fun d same => bare d same here
  | endless =>
    -- The request has not begun for a line that is lost, so the driver does nothing.
    refine h.setLine (by trivial) fun d same => ?_
    rw [← same]
    exact .refl d

theorem mem_of_line? {id : Nat} {state : LineState} (found : k.line? id = some state) :
    ∃ line ∈ k.lines, line.state = state := by
  obtain ⟨line, hline, rfl⟩ := Option.map_eq_some_iff.mp found
  exact ⟨line, List.mem_of_find?_eq_some hline, rfl⟩

theorem Driven.lines (h : k.Driven) : ∀ line ∈ k.lines, line.state.Orderly := by
  obtain ⟨_, _, _, _, follows⟩ := h
  exact follows.lines

theorem Driven.pollLine (h : k.Driven) (id : Nat) : (k.pollLine id).Driven := by
  unfold Kernel.pollLine
  split
  · rename_i text _
    refine h.settleLine (fun d same => ?_) (Line.runRequest_serves text k.workspace)
    rw [← same]
    exact (Driver.Step.aside .beginRequest).leads
  · rename_i s found
    obtain ⟨line, mem, state⟩ := mem_of_line? found
    have orderly := h.lines line mem
    rw [state] at orderly
    split
    · refine h.settleLine (fun d same => ?_) (orderly k.workspace)
      rw [← same]
      exact .refl d
    · exact h.aside (.remain s.wait)
  · exact h.discard id _
  · exact h

/-! ### Jobs -/

/-- All instances in the inbox are received, one after the other. -/
theorem receive_leads (inbox : List Instance) (d : Driver) (same : d.workspace.inbox = inbox) :
    d.Leads
      { d with workspace := { d.workspace with inbox := [] }, units := d.units ++ inbox } := by
  induction inbox generalizing d with
  | nil =>
    have unchanged : { d.workspace with inbox := [] } = d.workspace := by rw [← same]
    rw [unchanged, List.append_nil]
    exact .refl d
  | cons i rest ih =>
    have first := (Driver.Step.receive same).leads
    have others := ih
      { d with workspace := { d.workspace with inbox := rest }, units := d.units ++ [i] } rfl
    simpa using first.trans others

theorem Driven.receive (h : k.Driven) : k.receive.Driven := by
  refine Driven.callReady ?_
  obtain ⟨d₀, d, fresh, leads, follows⟩ := h
  have received := receive_leads k.workspace.inbox d (by rw [follows.workspace])
  refine ⟨d₀, _, fresh, leads.trans received, ?_, ?_, follows.outcomes, ?_, follows.lines⟩
  · simp [follows.workspace]
  · simpa [Function.comp_def] using follows.units.append_right k.workspace.inbox
  · intro job mem
    rcases List.mem_append.mp mem with old | new
    · exact follows.jobs job old
    · obtain ⟨i, -, rfl⟩ := List.mem_map.mp new
      intro s waiting
      cases waiting

/-- A job that was found by its generation, and the others. -/
theorem jobs_perm {job : Job} {generation : Nat}
    (distinct : (k.jobs.map (·.inst.generation)).Nodup) (found : k.job? generation = some job) :
    k.jobs.Perm (job :: k.jobs.filter (·.generation != generation)) := by
  -- The filter takes out every job of the generation, and there is only one.
  have mine := generation_of_job? found
  obtain ⟨before, after, split⟩ := List.append_of_mem (List.mem_of_find?_eq_some found)
  rw [split] at distinct ⊢
  have first := (List.perm_middle.map _).nodup_iff.mp distinct
  have others : ∀ other ∈ before ++ after, (other.generation != generation) = true := by
    intro other mem
    rw [bne_iff_ne, ← mine]
    intro same
    exact (List.nodup_cons.mp first).1 (List.mem_map.mpr ⟨other, mem, same⟩)
  have rest : (before ++ job :: after).filter (·.generation != generation) = before ++ after := by
    rw [List.filter_append, List.filter_cons_of_neg (by simp [mine]), ← List.filter_append]
    exact List.filter_eq_self.mpr others
  rw [rest]
  exact List.perm_middle

/-- The jobs of a kernel have generations of their own. -/
theorem Follows.nodup {d : Driver} (follows : k.Follows d) (custody : d.Custody) :
    (k.jobs.map (·.inst.generation)).Nodup := by
  have held := custody.covered.nodup
  rw [Driver.entries, List.map_map] at held
  have units : (d.units.map (·.generation)).Nodup := by
    refine held.sublist (List.Sublist.map _ ?_)
    exact (List.sublist_append_right _ _).trans (List.sublist_append_left _ _)
  have jobs := (follows.units.map (·.generation)).nodup_iff.mp units
  rwa [List.map_map] at jobs

theorem Driven.pollJob (h : k.Driven) (generation : Nat) : (k.pollJob generation).Driven := by
  unfold Kernel.pollJob
  cases found : k.job? generation with
  | none => exact h
  | some job =>
    obtain ⟨d₀, d, fresh, ⟨events, run⟩, follows⟩ := h
    have split := jobs_perm (follows.nodup (run.custody fresh.custody)) found
    have mem := split.mem_iff.mpr List.mem_cons_self
    have unit := follows.units.trans (split.map (·.inst))
    obtain ⟨d', followed⟩ :=
      Job.poll_followed (follows.jobs job mem) unit follows.outcomes
    rw [follows.workspace] at followed
    refine ⟨d₀, d', fresh, Driver.Leads.trans ⟨events, run⟩ followed.leads, followed.workspace, ?_,
      followed.outcomes, ?_, follows.lines⟩
    · simp only [settleJob, List.map_append]
      exact followed.units
    · intro other mem
      rcases List.mem_append.mp mem with old | new
      · exact follows.jobs other (List.mem_of_mem_filter old)
      · exact followed.orderly other new

theorem Driven.beginRound (h : k.Driven) : k.beginRound.Driven := by
  refine Driven.callReady ?_
  obtain ⟨d₀, d, fresh, leads, follows⟩ := h
  refine ⟨d₀, d, fresh, leads, follows.workspace, ?_, follows.outcomes, ?_, follows.lines⟩
  · simpa [Function.comp_def, Job.rise_inst] using follows.units
  · intro job mem
    obtain ⟨old, hold, rfl⟩ := List.mem_map.mp mem
    exact Job.rise_orderly (follows.jobs old hold)

end Kernel

end LineScript
