import LineScript.Proofs.Kernel.Effect

/-!
# Who starts scripts outlives them

A batch has a starter: the host, a line of the host, or a script in one of its ticks. As long as
nothing is stopped and no line is given up, a line or a script that has started a batch is still
there when the batch is complete. The tree of those who wait is nowhere written down; it shows in
the courses that kernels take.

* A `Course` keeps a record of the batches that were started and by whom.
* `Attended` is what holds in every course: whoever has started a batch with members left waits for
  it, and every instance in the driver's hands is registered.
* `Spawns` leads from a batch to those that its members have started.
-/

namespace LineScript.Kernel

variable {k k' : Kernel} {who : Starter}

/-! ## Courses -/

/-- A batch that was started, and by whom. -/
structure Begun where
  starter : Starter
  batch : Nat

/-- The batches that a turn has started. -/
def begins (k : Kernel) (who : Starter) (k' : Kernel) : List Begun :=
  (List.range' (k.workspace.scheduler.lastBatch + 1)
    (k'.workspace.scheduler.lastBatch - k.workspace.scheduler.lastBatch)).map fun batch =>
      ⟨who, batch⟩

/-- Any number of turns, with a record of the batches that they start. -/
inductive Course (k₀ : Kernel) : List Begun → Kernel → Prop where
  | nil : Course k₀ [] k₀
  | snoc {begun : List Begun} {k k' : Kernel} {who : Starter} (course : Course k₀ begun k)
      (turn : k.Turn who k') : Course k₀ (begun ++ k.begins who k') k'

/-- Whoever has started a batch with members left waits for it, and every instance in the driver's
hands is registered. -/
structure Attended (k : Kernel) (begun : List Begun) : Prop where
  driven : k.Driven
  registered : ∀ i ∈ k.workspace.inbox ++ k.jobs.map (·.inst),
    i.entry ∈ k.workspace.scheduler.active
  jobs : ∀ job ∈ k.jobs, job.Attends
  lines : ∀ line ∈ k.lines, line.state.Answers
  /-- Each batch has one starter. -/
  batches : begun.map (·.batch) = List.range' 1 k.workspace.scheduler.lastBatch
  waits : ∀ b ∈ begun, k.workspace.scheduler.HasMember b.batch → k.Awaits b.starter b.batch

variable {begun later : List Begun}

theorem Driven.sound (h : k.Driven) : k.workspace.scheduler.Sound := by
  obtain ⟨d₀, d, fresh, ⟨events, run⟩, follows⟩ := h
  rw [← follows.workspace]
  exact (run.custody fresh.custody).sound

/-- The instances in the inbox and at work cover the active set. -/
theorem Driven.covered (h : k.Driven) : k.workspace.scheduler.Covered
    ((k.workspace.inbox ++ k.jobs.map (·.inst)).map Instance.entry) := by
  obtain ⟨d₀, d, fresh, ⟨events, run⟩, follows⟩ := h
  have covered := (run.custody fresh.custody).covered.perm
    (follows.held_perm.map Instance.entry).symm
  rwa [follows.workspace] at covered

theorem Attended.current (h : k.Attended begun) {job : Job} (mem : job ∈ k.jobs) :
    k.workspace.isCurrent job.inst = true := by
  have active := h.registered job.inst
    (List.mem_append_right _ (List.mem_map_of_mem mem))
  exact (Scheduler.isCurrent_iff h.driven.sound.names_nodup).mpr ⟨_, active, rfl, rfl⟩

theorem Attended.effect (h : k.Attended begun) (turn : k.Turn who k') : k.Effect who k' :=
  turn.effect h.driven.sound (fun _ => h.current) h.jobs h.lines

/-- The other instances in the driver's hands have other names. -/
theorem Attended.name_ne (h : k.Attended begun) {job : Job}
    (found : k.job? job.generation = some job) {i : Instance}
    (mem : i ∈ k.workspace.inbox ++
      (k.jobs.filter (·.generation != job.generation)).map (·.inst)) :
    i.entry ∈ k.workspace.scheduler.active ∧ i.name ≠ job.inst.name := by
  have mine := List.mem_of_find?_eq_some found
  have active : i.entry ∈ k.workspace.scheduler.active := by
    refine h.registered i ?_
    rw [List.mem_append] at mem ⊢
    refine mem.imp_right fun other => ?_
    exact (List.filter_sublist.map _).subset other
  refine ⟨active, fun name => ?_⟩
  -- Of one name there is one entry, and of one entry one holder.
  have registered := h.registered job.inst (List.mem_append_right _ (List.mem_map_of_mem mine))
  have same : i.entry = job.inst.entry :=
    Scheduler.eq_of_name_eq h.driven.sound.names_nodup active registered name
  have generation : i.generation = job.generation := congrArg Active.generation same
  rcases List.mem_append.mp mem with waiting | other
  · have apart := h.driven.covered.nodup
    rw [List.map_append, List.map_append, List.nodup_append] at apart
    refine apart.2.2 _ ?_ _ ?_ generation
    · exact List.mem_map_of_mem (List.mem_map_of_mem waiting)
    · exact List.mem_map_of_mem (List.mem_map_of_mem (List.mem_map_of_mem mine))
  · obtain ⟨other, kept, rfl⟩ := List.mem_map.mp other
    exact bne_iff_ne.mp (List.mem_filter.mp kept).2 generation

/-- The instances in the driver's hands are registered after a turn as well. Only the one whose
job the turn was can have left, and it is not there any more. -/
theorem Attended.registered_turn (h : k.Attended begun) (effect : k.Effect who k') :
    ∀ i ∈ k'.workspace.inbox ++ k'.jobs.map (·.inst),
      i.entry ∈ k'.workspace.scheduler.active := by
  have added : ∀ {before after : Workspace} {invoker names started}, k.workspace.Steady before →
      before.startBatch invoker names = .ok (started, after) →
      (∀ e ∈ k.workspace.scheduler.active, e ∈ after.scheduler.active) ∧
        ∀ i ∈ after.inbox, i.entry ∈ after.scheduler.active := by
    intro before after invoker names started steady ok
    obtain ⟨-, -, new, -, active, inbox⟩ := steady.start ok
    refine ⟨fun e mem => by rw [active]; exact List.mem_append_left _ mem, fun i mem => ?_⟩
    rw [inbox, List.mem_append] at mem
    rw [active, List.mem_append]
    refine mem.imp (fun old => ?_) List.mem_map_of_mem
    exact h.registered i (List.mem_append_left _ old)
  have working : ∀ job ∈ k.jobs, job.inst.entry ∈ k.workspace.scheduler.active := by
    intro job mem
    exact h.registered _ (List.mem_append_right _ (List.mem_map_of_mem mem))
  intro i mem
  cases effect with
  | aside steady jobs _ =>
    rw [steady.inbox, jobs] at mem
    rw [steady.active]
    exact h.registered i mem
  | starts steady ok workspace jobs _ _ =>
    rw [workspace] at mem ⊢
    rcases List.mem_append.mp mem with waiting | work
    · exact (added steady ok).2 i waiting
    · obtain ⟨job, hjob, rfl⟩ := List.mem_map.mp work
      exact (added steady ok).1 _ (working job (jobs ▸ hjob))
  | receive scheduler inbox jobs _ =>
    rw [scheduler]
    refine h.registered i ?_
    simpa [inbox, jobs, Function.comp_def, or_comm] using mem
  | rise workspace jobs _ =>
    rw [workspace] at mem ⊢
    refine h.registered i ?_
    simpa [jobs, Function.comp_def, Job.rise_inst] using mem
  | @tick _ job polled found turns _ workspace jobs _ =>
    have mine := working job (List.mem_of_find?_eq_some found)
    rw [workspace, jobs, List.map_append] at mem
    rw [workspace]
    cases turns with
    | stays same _ steady =>
      rw [steady.inbox, ← List.append_assoc, List.mem_append] at mem
      rw [steady.active]
      rcases mem with other | this
      · exact (h.name_ne found other).1
      · rw [List.mem_singleton.mp this, same]
        exact mine
    | starts steady ok _ _ =>
      rcases List.mem_append.mp mem with waiting | work
      · exact (added steady ok).2 i waiting
      · refine (added steady ok).1 _ ?_
        rcases List.mem_append.mp work with other | this
        · exact (h.name_ne found (List.mem_append_right _ other)).1
        · rw [List.mem_singleton.mp this]
          exact mine
    | @ends gone _ same steady =>
      rw [Option.toList_none, List.map_nil, List.append_nil, Workspace.finish_inbox,
        steady.inbox] at mem
      obtain ⟨active, name⟩ := h.name_ne found mem
      have left : gone.name = job.inst.name := congrArg Active.name same
      exact (steady.finish gone).2.1 _ active (left ▸ name)

/-! ### One turn, and any number of them -/

theorem Effect.jobs_attend (effect : k.Effect who k') (attend : ∀ job ∈ k.jobs, job.Attends) :
    ∀ job ∈ k'.jobs, job.Attends := by
  intro job mem
  cases effect with
  | aside _ jobs _ => exact attend job (jobs ▸ mem)
  | starts _ _ _ jobs _ _ => exact attend job (jobs ▸ mem)
  | receive _ _ jobs _ =>
    rw [jobs, List.mem_append] at mem
    rcases mem with old | new
    · exact attend job old
    · obtain ⟨i, -, rfl⟩ := List.mem_map.mp new
      exact Job.attends_of_wait?_eq_none rfl
  | rise _ jobs _ =>
    rw [jobs] at mem
    obtain ⟨old, hold, rfl⟩ := List.mem_map.mp mem
    unfold Job.rise
    split
    · exact Job.attends_of_wait?_eq_none rfl
    · exact attend old hold
  | tick _ turns _ _ jobs _ =>
    rw [jobs, List.mem_append] at mem
    rcases mem with old | new
    · exact attend job (List.mem_of_mem_filter old)
    · cases turns with
      | stays _ attends _ => exact List.mem_singleton.mp new ▸ attends
      | starts _ _ _ attends => exact List.mem_singleton.mp new ▸ attends
      | ends _ _ => cases new

theorem Effect.lastBatch_le (effect : k.Effect who k') :
    k.workspace.scheduler.lastBatch ≤ k'.workspace.scheduler.lastBatch := by
  cases effect with
  | aside steady _ _ => exact steady.lastBatch_le
  | starts steady ok workspace _ _ _ =>
    obtain ⟨later, last, -⟩ := steady.start ok
    rw [workspace, last]
    exact later.le
  | receive scheduler _ _ _ => rw [scheduler]
  | rise workspace _ _ => rw [workspace]
  | tick _ turns _ workspace _ _ =>
    rw [workspace]
    cases turns with
    | stays _ _ steady => exact steady.lastBatch_le
    | starts steady ok _ _ =>
      obtain ⟨later, last, -⟩ := steady.start ok
      rw [last]
      exact later.le
    | ends _ steady => exact (steady.finish _).2.2

/-- A batch that had started before a turn and has members left after it had them before. -/
theorem Effect.hasMember (effect : k.Effect who k') {batch : Nat}
    (old : batch ≤ k.workspace.scheduler.lastBatch)
    (member : k'.workspace.scheduler.HasMember batch) : k.workspace.scheduler.HasMember batch := by
  obtain ⟨e, mem, rfl⟩ := member
  rcases effect.active_cases mem with before | ⟨later, -⟩
  · exact ⟨e, before, rfl⟩
  · omega

theorem Attended.batch_bounds (h : k.Attended begun) {b : Begun} (mem : b ∈ begun) :
    0 < b.batch ∧ b.batch ≤ k.workspace.scheduler.lastBatch := by
  have listed : b.batch ∈ begun.map (·.batch) := List.mem_map_of_mem mem
  rw [h.batches, List.mem_range'_1] at listed
  omega

theorem Attended.turn (h : k.Attended begun) (turn : k.Turn who k') :
    k'.Attended (begun ++ k.begins who k') := by
  have effect := h.effect turn
  have grows := effect.lastBatch_le
  refine ⟨h.driven.move turn.move, h.registered_turn effect, effect.jobs_attend h.jobs,
    effect.keepsLines.answers h.lines, ?_, ?_⟩
  · have listed : (k.begins who k').map (·.batch) =
        List.range' (1 + k.workspace.scheduler.lastBatch)
          (k'.workspace.scheduler.lastBatch - k.workspace.scheduler.lastBatch) := by
      simp [begins, Function.comp_def, Nat.add_comm]
    rw [List.map_append, h.batches, listed, List.range'_append_1, Nat.add_sub_cancel' grows]
  · intro b mem member
    rcases List.mem_append.mp mem with old | new
    · have before := effect.hasMember (h.batch_bounds old).2 member
      exact effect.awaits (h.waits b old before) before
    · obtain ⟨batch, range, rfl⟩ := List.mem_map.mp new
      rw [List.mem_range'_1] at range
      obtain ⟨e, active, rfl⟩ := member
      rcases effect.active_cases active with before | ⟨-, awaits⟩
      · have := h.driven.sound.batch_le e before
        omega
      · exact awaits

theorem Course.attended {k₀ : Kernel} (h : k₀.Attended begun) (course : k₀.Course later k) :
    k.Attended (begun ++ later) := by
  induction course with
  | nil => simpa using h
  | snoc _ turn ih =>
    rw [← List.append_assoc]
    exact ih.turn turn

theorem Fresh.attended (fresh : k.Fresh) : k.Attended [] where
  driven := fresh.driven
  registered := by simp [fresh.inbox, fresh.jobs]
  jobs := by simp [fresh.jobs]
  lines := by simp [fresh.lines]
  batches := by simp [fresh.scheduler]
  waits := by simp

/-! ## Descent -/

/-- A member of the first batch has started the second one. -/
def Spawns (begun : List Begun) (batch batch' : Nat) : Prop :=
  ∃ entry, entry.batch = batch ∧ ⟨.script entry, batch'⟩ ∈ begun

/-- The batch is complete and none of its members is registered. -/
def HasEnded (k : Kernel) (batch : Nat) : Prop :=
  k.workspace.scheduler.isComplete batch = true ∧
    ∀ e ∈ k.workspace.scheduler.active, e.batch ≠ batch

theorem Attended.hasMember_of_unfinished (h : k.Attended begun) {b : Begun} (mem : b ∈ begun)
    (unfinished : k.workspace.scheduler.isComplete b.batch = false) :
    k.workspace.scheduler.HasMember b.batch := by
  by_contra none
  have bounds := h.batch_bounds mem
  have complete := (h.driven.sound.isComplete_iff b.batch).mpr ⟨bounds.1, bounds.2, none⟩
  rw [unfinished] at complete
  cases complete

theorem Attended.hasEnded (h : k.Attended begun) {b : Begun} (mem : b ∈ begun)
    (none : ¬ k.workspace.scheduler.HasMember b.batch) : k.HasEnded b.batch := by
  have bounds := h.batch_bounds mem
  refine ⟨(h.driven.sound.isComplete_iff b.batch).mpr ⟨bounds.1, bounds.2, none⟩, ?_⟩
  intro e active batch
  exact none ⟨e, active, batch⟩

/-- Whoever has started a batch with members left is registered and a job that waits for it. -/
theorem Attended.starter_waits (h : k.Attended begun) {entry : Active} {batch : Nat}
    (mem : ⟨.script entry, batch⟩ ∈ begun)
    (member : k.workspace.scheduler.HasMember batch) :
    entry ∈ k.workspace.scheduler.active ∧ k.Awaits (.script entry) batch := by
  obtain ⟨job, found, rfl, waits⟩ := h.waits _ mem member
  refine ⟨h.registered job.inst (List.mem_append_right _ (List.mem_map_of_mem ?_)), job, found, rfl,
    waits⟩
  exact List.mem_of_find?_eq_some found

/-- With a member of a batch left, all batches above it have members left. -/
theorem Attended.hasMember_above (h : k.Attended begun) {batch batch' : Nat}
    (descent : Relation.ReflTransGen (Spawns begun) batch batch')
    (member : k.workspace.scheduler.HasMember batch') : k.workspace.scheduler.HasMember batch := by
  induction descent with
  | refl => exact member
  | tail _ spawns ih =>
    obtain ⟨entry, rfl, mem⟩ := spawns
    exact ih ⟨entry, (h.starter_waits mem member).1, rfl⟩

/-- The batches below one that has no member left have ended. -/
theorem Attended.hasEnded_below (h : k.Attended begun) {b : Begun} (mem : b ∈ begun) {batch' : Nat}
    (descent : Relation.ReflTransGen (Spawns begun) b.batch batch')
    (none : ¬ k.workspace.scheduler.HasMember b.batch) : k.HasEnded batch' := by
  have below : ¬ k.workspace.scheduler.HasMember batch' :=
    fun member => none (h.hasMember_above descent member)
  rcases descent.cases_tail with same | ⟨_, _, entry, _, begun'⟩
  · rw [same]
    exact h.hasEnded mem none
  · exact h.hasEnded begun' below

/-- What a line of the host that is over has started has ended. -/
theorem Attended.line_hasEnded (h : k.Attended begun) {id : Nat} {evaluation : Evaluation}
    (finished : k.line? id = some (.finished evaluation)) {batch batch' : Nat}
    (mem : ⟨.line id, batch⟩ ∈ begun)
    (descent : Relation.ReflTransGen (Spawns begun) batch batch') : k.HasEnded batch' := by
  refine h.hasEnded_below mem descent fun member => ?_
  have waits : k.wait? (.line id) = some (.batch batch) := h.waits _ mem member
  simp [wait?, finished, LineState.wait?] at waits

/-- A job that waits for a batch is the same as long as the batch is not complete. -/
theorem Attended.job?_eq (h : k.Attended begun) {b : Begun} (mem : b ∈ begun) {generation : Nat}
    {job : Job} (found : k.job? generation = some job)
    (waits : job.phase.wait? = some (.batch b.batch)) (course : k.Course later k')
    (member : k'.workspace.scheduler.HasMember b.batch) : k'.job? generation = some job := by
  induction course with
  | nil => exact found
  | snoc course turn ih =>
    have attended := course.attended h
    have effect := attended.effect turn
    have old := (attended.batch_bounds (List.mem_append_left _ mem)).2
    have before := effect.hasMember old member
    exact effect.job?_eq (ih before) waits before

/-! ## Waits of the host -/

theorem Course.append {k₀ : Kernel} (course : k₀.Course begun k) (rest : k.Course later k') :
    k₀.Course (begun ++ later) k' := by
  induction rest with
  | nil => simpa using course
  | snoc _ turn ih =>
    rw [← List.append_assoc]
    exact ih.snoc turn

theorem Proceed.turn (h : k.Proceed k') : ∃ who, k.Turn who k' := by
  cases h with
  | pollLine id => exact ⟨_, .pollLine id⟩
  | receive => exact ⟨_, .receive⟩
  | pollJob generation =>
    cases found : k.job? generation with
    | none =>
      have nobody : k.pollJob generation = k := by
        unfold Kernel.pollJob
        rw [found]
      rw [nobody]
      exact ⟨_, .reorder ⟨rfl, rfl, rfl⟩⟩
    | some job =>
      obtain rfl := generation_of_job? found
      exact ⟨_, .pollJob found⟩
  | beginRound => exact ⟨_, .beginRound⟩
  | passTo time => exact ⟨_, .passTo time⟩
  | reorder same => exact ⟨_, .reorder same⟩

theorem Proceeds.course (h : k.Proceeds k') : ∃ later, k.Course later k' := by
  induction h with
  | refl => exact ⟨[], .nil⟩
  | tail _ step ih =>
    obtain ⟨later, course⟩ := ih
    obtain ⟨who, turn⟩ := step.turn
    exact ⟨_, course.snoc turn⟩

/-- Turns lead from one kernel to the other, and what the line has started there or before, itself
or through scripts, has ended. -/
def Delivers (k : Kernel) (begun : List Begun) (id : Nat) (k' : Kernel) : Prop :=
  ∃ later, k.Course later k' ∧ ∀ batch batch', ⟨.line id, batch⟩ ∈ begun ++ later →
    Relation.ReflTransGen (Spawns (begun ++ later)) batch batch' → k'.HasEnded batch'

/-- A line that is taken out with its outcome has outlived what it started. -/
theorem Attended.delivers (h : k.Attended begun) {before : Kernel} (course : k.Course later before)
    {id : Nat} {evaluation : Evaluation} (taken : before.takeLine id = (some evaluation, k')) :
    k.Delivers begun id k' := by
  have attended := course.attended h
  unfold Kernel.takeLine at taken
  split at taken
  · rename_i found
    cases taken
    have turn : before.Turn .host (before.removeLine id) := by
      have turn := Turn.takeLine found
      unfold Kernel.takeLine at turn
      rwa [found] at turn
    have none : before.begins .host (before.removeLine id) = [] := by
      simp [begins, removeLine]
    have rest := course.snoc turn
    rw [none, List.append_nil] at rest
    exact ⟨later, rest, fun _ _ mem descent => attended.line_hasEnded found mem descent⟩
  · cases taken

theorem Attended.run_delivers (h : k.Attended begun) {effort : Effort} {text : String}
    {evaluation : Evaluation} (returned : k.run effort text = (some evaluation, k')) :
    k.Delivers begun k.nextLine k' := by
  have submitted : k.Course ([] ++ k.begins .host (k.submit text).2) (k.submit text).2 :=
    .snoc .nil (.submit text)
  unfold run at returned
  dsimp only at returned
  split at returned
  · rename_i before eq
    obtain ⟨later, course⟩ := (await_proceeds (.line (k.submit text).1)
      (k.workspace.now + effort.patience) effort.rounds (k.submit text).2).course
    rw [eq] at course
    exact h.delivers (submitted.append course) returned
  · cases returned

theorem Attended.awaitLine_delivers (h : k.Attended begun) {effort : Effort} {id : Nat}
    {evaluation : Evaluation} (returned : k.awaitLine effort id = (some evaluation, k')) :
    k.Delivers begun id k' := by
  unfold awaitLine at returned
  split at returned
  · rename_i before eq
    obtain ⟨later, course⟩ := (await_proceeds (.outcome id)
      (k.workspace.now + effort.patience) effort.rounds k).course
    rw [eq] at course
    exact h.delivers course returned
  · cases returned

/-! ## Structure -/

/-- Starts are structured. In every course of a kernel in which nothing is stopped and no line is
given up, each batch has one starter. While a batch that a script has started is not complete, the
script is registered with the same generation, waits within the same tick, and a turn of it changes
nothing. So with a batch all batches are complete that its members have started, and those that
the members of these have started, and so on, and no instance of them is registered. The same holds
of all that a line of the host has started, once the line is over and when the host gets its
outcome. -/
theorem starters_outlive_batches {k₀ k : Kernel} {begun : List Begun} (fresh : k₀.Fresh)
    (course : k₀.Course begun k) :
    begun.map (·.batch) = List.range' 1 k.workspace.scheduler.lastBatch ∧
    (∀ entry batch, ⟨.script entry, batch⟩ ∈ begun →
      k.workspace.scheduler.isComplete batch = false →
      entry ∈ k.workspace.scheduler.active ∧
      ∃ job, k.job? entry.generation = some job ∧ job.inst.entry = entry ∧
        job.phase.wait? = some (.batch batch) ∧
        job.poll k.workspace = (some job, k.workspace) ∧
        ∀ later k', k.Course later k' → k'.workspace.scheduler.isComplete batch = false →
          k'.job? entry.generation = some job) ∧
    (∀ batch batch', k.workspace.scheduler.isComplete batch = true →
      Relation.TransGen (Spawns begun) batch batch' → k.HasEnded batch') ∧
    (∀ id evaluation batch batch', k.line? id = some (.finished evaluation) →
      ⟨.line id, batch⟩ ∈ begun → Relation.ReflTransGen (Spawns begun) batch batch' →
      k.HasEnded batch') ∧
    (∀ effort text evaluation k', k.run effort text = (some evaluation, k') →
      k.Delivers begun k.nextLine k') ∧
    ∀ effort id evaluation k', k.awaitLine effort id = (some evaluation, k') →
      k.Delivers begun id k' := by
  have h : k.Attended begun := course.attended fresh.attended
  refine ⟨h.batches, ?_, ?_, ?_, ?_, ?_⟩
  · intro entry batch mem unfinished
    have member := h.hasMember_of_unfinished mem unfinished
    obtain ⟨active, job, found, rfl, waits⟩ := h.starter_waits mem member
    have current := h.current (List.mem_of_find?_eq_some found)
    refine ⟨active, job, found, rfl, waits, job.poll_of_unfinished current waits unfinished, ?_⟩
    intro later k' rest unfinished'
    have attended := rest.attended h
    have member' := attended.hasMember_of_unfinished (List.mem_append_left _ mem) unfinished'
    exact h.job?_eq mem found waits rest member'
  · intro batch batch' complete descent
    have none := ((h.driven.sound.isComplete_iff batch).mp complete).2.2
    obtain ⟨parent, above, entry, mine, mem⟩ := Relation.TransGen.tail'_iff.mp descent
    refine h.hasEnded mem fun member => none ?_
    exact h.hasMember_above (above.tail ⟨entry, mine, mem⟩) member
  · intro id evaluation batch batch' finished mem descent
    exact h.line_hasEnded finished mem descent
  · intro effort text evaluation k' returned
    exact h.run_delivers returned
  · intro effort id evaluation k' returned
    exact h.awaitLine_delivers returned

/-- A kernel with a script that runs another one. -/
def household : Kernel :=
  withParts .isolated (.memory ⟨[("a", "run b"), ("b", "run a")]⟩) .recording
    (.ofCommands [Builtin.run])

/-- `a` has started and its first tick is due. -/
def evening : Kernel :=
  match household.start ["a"] with
  | .ok (_, k) => (k.receive.pollJob 1).beginRound
  | .error _ => household

theorem household_course_evening : ∃ begun, household.Course begun evening := by
  have started : (household.start ["a"]).isOk = true := by decide +kernel
  unfold evening
  cases eq : household.start ["a"] with
  | error e =>
    rw [eq] at started
    cases started
  | ok result =>
    obtain ⟨started, k⟩ := result
    have start : household.Course _ k := .snoc .nil (.start eq)
    have round : k.Proceeds (k.receive.pollJob 1).beginRound :=
      ((Relation.ReflTransGen.single .receive).tail (.pollJob 1)).tail .beginRound
    obtain ⟨later, course⟩ := round.course
    exact ⟨_, start.append course⟩

/-- In its first tick `a` has started `b`, and it waits for `b`. -/
theorem household_waits :
    ∃ begun, household.Course begun (evening.pollJob 1) ∧
      (⟨"a", 1, 1⟩ : Active) ∈ (evening.pollJob 1).workspace.scheduler.active ∧
      ∃ job, (evening.pollJob 1).job? 1 = some job ∧ job.phase.wait? = some (.batch 2) := by
  obtain ⟨before, course⟩ := household_course_evening
  have facts : (evening.job? 1).map (fun job => (job.generation, job.inst.entry)) =
        some (1, ⟨"a", 1, 1⟩) ∧
      evening.workspace.scheduler.lastBatch = 1 ∧
      (evening.pollJob 1).workspace.scheduler.lastBatch = 2 ∧
      (evening.pollJob 1).workspace.scheduler.isComplete 2 = false := by
    decide +kernel
  obtain ⟨due, one, two, unfinished⟩ := facts
  obtain ⟨job, found, eq⟩ := Option.map_eq_some_iff.mp due
  obtain ⟨generation, entry⟩ := Prod.mk.inj eq
  have tick : evening.Turn (.script job.inst.entry) (evening.pollJob job.generation) :=
    .pollJob (by rw [generation]; exact found)
  rw [generation, entry] at tick
  have mem : (⟨.script ⟨"a", 1, 1⟩, 2⟩ : Begun) ∈
      before ++ evening.begins (.script ⟨"a", 1, 1⟩) (evening.pollJob 1) := by
    simp [begins, one, two]
  have fresh : household.Fresh := withParts_fresh ..
  obtain ⟨-, waits, -⟩ := starters_outlive_batches fresh (course.snoc tick)
  obtain ⟨active, child, running, -, wait, -⟩ := waits _ 2 mem unfinished
  exact ⟨_, course.snoc tick, active, child, running, wait⟩

end LineScript.Kernel
