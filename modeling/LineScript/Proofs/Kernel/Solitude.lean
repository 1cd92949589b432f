import LineScript.Proofs.Kernel.Company

/-!
# A script by itself

What comes of the ticks of one job does not depend on who else is there. The kernel with this job
alone goes through the same events, and finds after each of them what the whole company finds, but
for the others (`Company.Linked`).

* `Company.Sound` holds of a company whose sagas are those of the ticks that its jobs are in.
* `Company.Turns` is what a private turn comes to, here and in a workspace beside this one.
* `Company.Linked.sequence_eq` is the result for all events.
-/

namespace LineScript

namespace Kernel

/-- The job of this generation by itself: nobody else is running. -/
def alone (k : Kernel) (generation : Nat) : Kernel :=
  { k with
    jobs := k.jobs.filter (·.generation == generation)
    lines := []
    workspace :=
      { k.workspace with
        scheduler :=
          { k.workspace.scheduler with
            active := k.workspace.scheduler.active.filter (·.generation == generation) }
        bus := {}
        inbox := [] } }

end Kernel

namespace Company

open Workspace

variable {c c' : Company} {event : Event} {generation other : Nat} {entropy : Entropy} {job : Job}

/-! ## What the events come to -/

/-- A job has had its turn. -/
def settled (c : Company) (generation : Nat) (polled : Option Job × Workspace)
    (rest : Workspace → Saga Ticked) : Company :=
  ⟨c.kernel.settleJob generation polled, Function.update c.rest generation rest⟩

section Settled

variable {polled : Option Job × Workspace} {rest : Workspace → Saga Ticked}

theorem job?_settled (mine : ∀ job, polled.1 = some job → job.generation = generation) :
    (c.settled generation polled rest).kernel.job? generation = polled.1 := by
  have jobs : (c.settled generation polled rest).kernel.jobs =
      c.kernel.jobs.filter (·.generation != generation) ++ polled.1.toList := rfl
  rw [Kernel.job?_settled jobs]
  cases left : polled.1 with
  | none => rfl
  | some job => simp [mine job left]

theorem job?_settled_of_ne (mine : ∀ job, polled.1 = some job → job.generation = generation)
    (ne : other ≠ generation) :
    (c.settled generation polled rest).kernel.job? other = c.kernel.job? other := by
  have kept : ∀ a : Job, (a.generation == other) = true → (a.generation != generation) = true := by
    intro a found
    rw [beq_iff_eq.mp found]
    exact bne_iff_ne.mpr ne
  have left : polled.1.toList.find? (·.generation == other) = none := by
    cases left : polled.1 with
    | none => rfl
    | some job => simp [mine job left, Ne.symm ne]
  unfold Kernel.job? settled Kernel.settleJob
  rw [List.find?_append, Kernel.find?_filter_of_imp kept, left, Option.or_none]

theorem rest_settled : (c.settled generation polled rest).rest generation = rest :=
  Function.update_self ..

theorem rest_settled_of_ne (ne : other ≠ generation) :
    (c.settled generation polled rest).rest other = c.rest other :=
  Function.update_of_ne ne ..

end Settled

theorem next_turn_of_none (missing : c.kernel.job? generation = none) :
    c.next (.turn generation entropy) = ⟨c.stirred entropy, c.rest⟩ := by
  have same : (c.stirred entropy).job? generation = none := missing
  simp only [next, Kernel.pollJob, same, missing]

theorem next_turn_of_some (found : c.kernel.job? generation = some job) :
    c.next (.turn generation entropy) =
      c.settled generation (job.poll (c.workspace.stir entropy))
        (job.restAfter (c.rest generation) (c.workspace.stir entropy)) := by
  have same : (c.stirred entropy).job? generation = some job := found
  simp only [next, Kernel.pollJob, same, found]
  rfl

theorem workspace_stop (c : Company) (target : StopTarget) :
    (c.next (.stop target)).workspace = (c.workspace.stop target).2 :=
  (Kernel.callReady_same _).workspace

theorem workspace_round (c : Company) : (c.next .round).workspace = c.workspace :=
  c.kernel.beginRound_workspace

theorem workspace_pass (c : Company) (time : Nat) :
    (c.next (.pass time)).workspace = { c.workspace with now := max c.workspace.now time } :=
  (c.kernel.passTo_same time).workspace

theorem job?_stop (c : Company) (target : StopTarget) (generation : Nat) :
    (c.next (.stop target)).kernel.job? generation = c.kernel.job? generation :=
  congrArg (List.find? fun job : Job => job.generation == generation) (Kernel.callReady_same _).jobs

theorem job?_round (c : Company) (generation : Nat) :
    (c.next .round).kernel.job? generation = (c.kernel.job? generation).map Job.rise :=
  Kernel.job?_risen c.kernel.beginRound_jobs generation

theorem job?_pass (c : Company) (time : Nat) (generation : Nat) :
    (c.next (.pass time)).kernel.job? generation = c.kernel.job? generation :=
  congrArg (List.find? fun job : Job => job.generation == generation)
    (c.kernel.passTo_same time).jobs

/-- The registrations are in order, and the sagas are those of the ticks that the jobs are in. -/
structure Sound (c : Company) : Prop where
  registered : c.workspace.scheduler.Registered
  tells : ∀ generation job, c.kernel.job? generation = some job → job.Tells (c.rest generation)

/-- A turn of a job comes to the same in this workspace and in another one, and this is what it
comes to. -/
structure Turns (c : Company) (generation : Nat) (entropy : Entropy) (job : Job) (ws : Workspace) :
    Prop where
  rest : job.restAfter (c.rest generation) ws =
    job.restAfter (c.rest generation) (c.workspace.stir entropy)
  ticked : job.ticked? ws = job.ticked? (c.workspace.stir entropy)
  parallel : job.Parallel (job.restAfter (c.rest generation) (c.workspace.stir entropy))
    (c.workspace.stir entropy) ws (job.poll (c.workspace.stir entropy)) (job.poll ws)
    (job.ticked? (c.workspace.stir entropy))
  mine : job.inst.generation = generation

theorem Sound.turns (h : c.Sound) (found : c.kernel.job? generation = some job)
    (priv : c.IsPrivate (.turn generation entropy)) {ws : Workspace}
    (beside : Beside job.inst (c.workspace.stir entropy) ws) :
    c.Turns generation entropy job ws := by
  have told : ∀ saga, job.saga? (c.rest generation) (c.workspace.stir entropy) = some saga →
      saga.IsPrivate := by
    intro saga tells contact mem
    refine priv contact ?_
    simpa only [contacts, found, Option.bind_some, tells] using mem
  obtain ⟨rest, ticked, parallel⟩ :=
    Job.poll_parallel (h.tells generation job found) beside told
  exact ⟨rest, ticked, parallel, Kernel.generation_of_job? found⟩

namespace Turns

variable {ws : Workspace}

/-- What is left of a job is still its own. -/
theorem left_generation (h : c.Turns generation entropy job ws) {job' : Job}
    (left : (job.poll ws).1 = some job') : job'.generation = generation := by
  rw [h.parallel.left] at left
  exact (congrArg Active.generation (h.parallel.left_entry job' left)).trans h.mine

theorem left_generation_here (h : c.Turns generation entropy job ws) {job' : Job}
    (left : (job.poll (c.workspace.stir entropy)).1 = some job') : job'.generation = generation :=
  h.left_generation (h.parallel.left.trans left)

theorem ended_generation (h : c.Turns generation entropy job ws) {i : Instance}
    (leaves : Job.ended? (job.ticked? (c.workspace.stir entropy)) = some i) :
    i.generation = generation :=
  (congrArg Active.generation (h.parallel.ended_entry i leaves)).trans h.mine

/-- Nothing is left of a turn but random numbers, what was said and who has ended. -/
theorem here_eq (h : c.Turns generation entropy job ws) :
    (job.poll (c.workspace.stir entropy)).2 =
      job.conclude (c.workspace.stir entropy) c.workspace := by
  rw [← Job.conclude_stir]
  exact h.parallel.here

/-- The turn of one job leaves the others what they look at. -/
theorem shares (h : c.Turns generation entropy job ws) :
    Shares c.workspace (job.poll (c.workspace.stir entropy)).2 := by
  rw [h.here_eq]
  exact shares_concluded ..

end Turns

theorem Sound.next (h : c.Sound) (priv : c.IsPrivate event) : (c.next event).Sound := by
  cases event with
  | turn generation entropy =>
    cases found : c.kernel.job? generation with
    | none =>
      rw [next_turn_of_none found]
      exact ⟨h.registered, h.tells⟩
    | some job =>
      have turns := h.turns found priv (.refl _ _)
      have mine : ∀ job', (job.poll (c.workspace.stir entropy)).1 = some job' →
          job'.generation = generation := fun _ left => turns.left_generation left
      rw [next_turn_of_some found]
      refine ⟨?_, ?_⟩
      · show (job.poll (c.workspace.stir entropy)).2.scheduler.Registered
        rw [turns.here_eq]
        exact h.registered.dismiss _
      · intro other job' found'
        by_cases same : other = generation
        · subst same
          rw [job?_settled mine] at found'
          rw [rest_settled]
          exact turns.parallel.tells job' found'
        · rw [job?_settled_of_ne mine same] at found'
          rw [rest_settled_of_ne same]
          exact h.tells other job' found'
  | stop target =>
    refine ⟨?_, fun generation job found => h.tells generation job ?_⟩
    · rw [workspace_stop, Workspace.stop_scheduler]
      exact h.registered.without
    · rwa [job?_stop] at found
  | round =>
    refine ⟨by rw [workspace_round]; exact h.registered, fun generation job found => ?_⟩
    rw [job?_round] at found
    obtain ⟨before, old, rfl⟩ := Option.map_eq_some_iff.mp found
    unfold Job.rise
    split
    · exact Job.tells_of_wait?_eq_none rfl _
    · exact h.tells generation before old
  | pass time =>
    refine ⟨by rw [workspace_pass]; exact h.registered, fun generation job found => ?_⟩
    rw [job?_pass] at found
    exact h.tells generation job found

/-! ## One instance by itself -/

/-- The second company has the job of this generation and no other, and finds the same. -/
structure Linked (generation : Nat) (c c' : Company) : Prop where
  job : c'.kernel.job? generation = c.kernel.job? generation
  rest : c'.rest generation = c.rest generation
  others : ∀ other, other ≠ generation → c'.kernel.job? other = none
  shares : Shares c.workspace c'.workspace
  registered : c'.workspace.scheduler.Registered
  active : ∀ e, e ∈ c'.workspace.scheduler.active ↔
    e ∈ c.workspace.scheduler.active ∧ e.generation = generation

theorem Linked.beside (h : Linked generation c c') (sound : c.Sound) {who : Instance}
    (mine : who.generation = generation) (entropy : Entropy) :
    Beside who (c.workspace.stir entropy) (c'.workspace.stir entropy) where
  toShares := { h.shares with }
  entropy := rfl
  current := by
    show c'.workspace.scheduler.isCurrent who.name who.generation =
      c.workspace.scheduler.isCurrent who.name who.generation
    rw [Bool.eq_iff_iff, Scheduler.isCurrent_iff h.registered.names_nodup,
      Scheduler.isCurrent_iff sound.registered.names_nodup]
    constructor
    · rintro ⟨e, mem, same⟩
      exact ⟨e, ((h.active e).mp mem).1, same⟩
    · rintro ⟨e, mem, name, same⟩
      exact ⟨e, (h.active e).mpr ⟨mem, same.trans mine⟩, name, same⟩
  names := by
    intro name mem
    obtain ⟨e, active, rfl⟩ := List.mem_map.mp mem
    exact List.mem_map_of_mem ((h.active e).mp active).1

/-- What comes of the ticks of the job is the same in both. -/
theorem Linked.outcome?_eq (h : Linked generation c c') (sound : c.Sound)
    (priv : c.IsPrivate event) : c'.outcome? generation event = c.outcome? generation event := by
  cases event with
  | turn other entropy =>
    simp only [outcome?]
    by_cases same : other = generation
    · subst same
      rw [if_pos rfl, if_pos rfl, h.job]
      cases found : c.kernel.job? other with
      | none => rfl
      | some job =>
        have beside := h.beside sound (Kernel.generation_of_job? found) entropy
        have turns := sound.turns found priv beside
        exact turns.ticked
    · rw [if_neg same, if_neg same]
  | _ => rfl

/-- A turn of the job itself. -/
theorem Linked.turn_self (h : Linked generation c c') (sound : c.Sound)
    (priv : c.IsPrivate (.turn generation entropy)) :
    Linked generation (c.next (.turn generation entropy))
      (c'.next (.turn generation entropy)) := by
  cases found : c.kernel.job? generation with
  | none =>
    have missing : c'.kernel.job? generation = none := h.job.trans found
    rw [next_turn_of_none found, next_turn_of_none missing]
    exact { h with shares := { h.shares with } }
  | some job =>
    have same : c'.kernel.job? generation = some job := h.job.trans found
    have beside := h.beside sound (Kernel.generation_of_job? found) entropy
    have turns := sound.turns found priv beside
    have here := turns.parallel.here
    have there := turns.parallel.there
    have mine : ∀ job', (job.poll (c'.workspace.stir entropy)).1 = some job' →
        job'.generation = generation := fun _ left => turns.left_generation left
    have mine' : ∀ job', (job.poll (c.workspace.stir entropy)).1 = some job' →
        job'.generation = generation :=
      fun _ left => turns.left_generation_here left
    rw [next_turn_of_some found, next_turn_of_some same]
    exact
      { job := by
          rw [job?_settled mine, job?_settled mine']
          exact turns.parallel.left
        rest := by
          rw [rest_settled, rest_settled, h.rest]
          exact turns.rest
        others := by
          intro other ne
          rw [job?_settled_of_ne mine ne]
          exact h.others other ne
        shares := turns.parallel.shares
          (h.beside sound (Kernel.generation_of_job? found) entropy).toShares
        registered := by
          show (job.poll (c'.workspace.stir entropy)).2.scheduler.Registered
          rw [there]
          exact h.registered.dismiss _
        active := by
          intro e
          show e ∈ (job.poll (c'.workspace.stir entropy)).2.scheduler.active ↔
            e ∈ (job.poll (c.workspace.stir entropy)).2.scheduler.active ∧ e.generation = generation
          rw [there, here]
          show e ∈ (c'.workspace.scheduler.dismiss _).1.active ↔
            e ∈ (c.workspace.scheduler.dismiss _).1.active ∧ e.generation = generation
          rw [Scheduler.mem_dismiss h.registered, Scheduler.mem_dismiss sound.registered, h.active,
            and_right_comm] }

/-- A turn of another job is nothing to this one. -/
theorem Linked.turn_other (h : Linked generation c c') (sound : c.Sound)
    (priv : c.IsPrivate (.turn other entropy)) (ne : other ≠ generation) :
    Linked generation (c.next (.turn other entropy)) (c'.next (.turn other entropy)) := by
  rw [next_turn_of_none (h.others other ne)]
  cases found : c.kernel.job? other with
  | none =>
    rw [next_turn_of_none found]
    exact { h with shares := { h.shares with } }
  | some job =>
    have turns := sound.turns found priv (.refl _ _)
    have here := turns.here_eq
    have mine : ∀ job', (job.poll (c.workspace.stir entropy)).1 = some job' →
        job'.generation = other := fun _ left => turns.left_generation left
    rw [next_turn_of_some found]
    exact
      { job := by
          rw [job?_settled_of_ne mine (Ne.symm ne)]
          exact h.job
        rest := by
          rw [rest_settled_of_ne (Ne.symm ne)]
          exact h.rest
        others := h.others
        shares := turns.shares.symm.trans { h.shares with }
        registered := h.registered
        active := by
          intro e
          show e ∈ c'.workspace.scheduler.active ↔
            e ∈ (job.poll (c.workspace.stir entropy)).2.scheduler.active ∧ e.generation = generation
          rw [here]
          show e ∈ c'.workspace.scheduler.active ↔
            e ∈ (c.workspace.scheduler.dismiss _).1.active ∧ e.generation = generation
          rw [Scheduler.mem_dismiss sound.registered, h.active]
          -- Whoever leaves is of the other generation.
          constructor
          · rintro ⟨active, mine⟩
            refine ⟨⟨active, fun i leaves _ same => ne ?_⟩, mine⟩
            rw [← turns.ended_generation leaves, ← same, mine]
          · rintro ⟨⟨active, -⟩, mine⟩
            exact ⟨active, mine⟩ }

theorem Linked.next (h : Linked generation c c') (sound : c.Sound) (priv : c.IsPrivate event) :
    Linked generation (c.next event) (c'.next event) := by
  cases event with
  | turn other entropy =>
    by_cases same : other = generation
    · subst same
      exact h.turn_self sound priv
    · exact h.turn_other sound priv same
  | stop target =>
    exact
      { job := by rw [job?_stop, job?_stop, h.job]
        rest := h.rest
        others := by
          intro other ne
          rw [job?_stop]
          exact h.others other ne
        shares := by
          rw [workspace_stop, workspace_stop]
          exact (Workspace.shares_stop _ target).symm.trans
            (h.shares.trans (Workspace.shares_stop _ target))
        registered := by
          rw [workspace_stop, Workspace.stop_scheduler]
          exact h.registered.without
        active := by
          intro e
          rw [workspace_stop, workspace_stop, Workspace.stop_scheduler, Workspace.stop_scheduler,
            Scheduler.mem_without_targeted, Scheduler.mem_without_targeted, h.active,
            and_right_comm] }
  | round =>
    exact
      { job := by rw [job?_round, job?_round, h.job]
        rest := h.rest
        others := by
          intro other ne
          rw [job?_round, h.others other ne, Option.map_none]
        shares := by
          rw [workspace_round, workspace_round]
          exact h.shares
        registered := by
          rw [workspace_round]
          exact h.registered
        active := by
          rw [workspace_round, workspace_round]
          exact h.active }
  | pass time =>
    exact
      { job := by rw [job?_pass, job?_pass, h.job]
        rest := h.rest
        others := by
          intro other ne
          rw [job?_pass]
          exact h.others other ne
        shares := by
          rw [workspace_pass, workspace_pass]
          exact { h.shares with now := by rw [h.shares.now] }
        registered := by
          rw [workspace_pass]
          exact h.registered
        active := by
          rw [workspace_pass, workspace_pass]
          exact h.active }

/-- Whatever the others do, what comes of the ticks of the job is what comes of them by
themselves. -/
theorem Linked.sequence_eq {events : List Event} (h : Linked generation c c') (sound : c.Sound)
    (priv : c.ArePrivate events) :
    c'.sequence generation events = c.sequence generation events := by
  induction events generalizing c c' with
  | nil => rfl
  | cons event rest ih =>
    obtain ⟨first, others⟩ := priv
    simp only [sequence]
    rw [h.outcome?_eq sound first, ih (h.next sound first) (sound.next first) others]

end Company

end LineScript
