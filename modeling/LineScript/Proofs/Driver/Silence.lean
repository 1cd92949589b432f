import LineScript.Proofs.Driver.Custody

/-!
# Who has left is silent

A generation is handed out once. So an instance that was stopped or has ended is never current
again, whoever has its name by then, although its unit may go on for a while. What is left of its
tick can neither say anything nor take anybody out of the active set.
-/

namespace LineScript.Driver

/-- The instances that some events have started, in order. -/
def startedBy (events : List Event) : List Instance :=
  events.flatMap Event.started

@[simp] theorem startedBy_append (past future : List Event) :
    startedBy (past ++ future) = startedBy past ++ startedBy future :=
  List.flatMap_append

variable {d d' d'' d₀ : Driver} {event : Event} {events past future : List Event}

/-! ## Generations -/

/-- A batch takes the next generations, one for each instance. Nothing else uses them up. -/
theorem Step.generations (c : d.Custody) (step : d.Step event d') :
    event.started.map (·.generation) =
        List.range' d.workspace.scheduler.nextGeneration event.started.length ∧
      d'.workspace.scheduler.nextGeneration =
        d.workspace.scheduler.nextGeneration + event.started.length := by
  cases step with
  | start _ ok sent =>
    obtain ⟨-, scripts, e, -, new, -, rfl⟩ := Workspace.startBatch_ok ok
    have batch := List.append_cancel_left sent
    rw [new.instances] at batch
    subst batch
    rw [Event.started, Scheduler.length_newInstances]
    exact ⟨Scheduler.newInstances_generations .., new.nextGeneration⟩
  | act _ touch => exact ⟨rfl, congrArg Scheduler.nextGeneration touch.frame.1⟩
  | conclude _ leaves =>
    obtain ⟨said, rfl, -⟩ := (leaves.ending c.told).publishes
    exact ⟨rfl, rfl⟩
  | @handle ticked rest _ =>
    refine ⟨rfl, ?_⟩
    unfold handled
    cases ticked.outcome with
    | ended _ =>
      show (d.workspace.finish ticked.inst).scheduler.nextGeneration = _
      rw [Workspace.finish_scheduler]
      rcases Scheduler.finish_cases d.workspace.scheduler ticked.inst with ⟨-, eq⟩ | ⟨-, eq⟩
      · rw [eq]
        rfl
      · rw [eq]
        rfl
    | _ => rfl
  | receive _ => exact ⟨rfl, rfl⟩
  | stop target =>
    refine ⟨rfl, ?_⟩
    rw [Workspace.stop_scheduler]
    rfl
  | aside h => exact ⟨rfl, congrArg Scheduler.nextGeneration h.frame.1⟩

/-- In a run the generations are handed out one after the other. -/
theorem Runs.generations (c : d.Custody) (run : d.Runs events d') :
    (startedBy events).map (·.generation) =
        List.range' d.workspace.scheduler.nextGeneration (startedBy events).length ∧
      d'.workspace.scheduler.nextGeneration =
        d.workspace.scheduler.nextGeneration + (startedBy events).length := by
  induction run with
  | nil => exact ⟨rfl, rfl⟩
  | @snoc events event d₁ d₂ run step ih =>
    obtain ⟨handed, next⟩ := step.generations (run.custody c)
    have last : startedBy [event] = event.started := by simp [startedBy]
    rw [startedBy_append, last, List.map_append, ih.1, handed, next, ih.2, List.length_append]
    exact ⟨List.range'_append_1, Nat.add_assoc ..⟩

/-! ## Who has left -/

theorem Runs.departed (c : d.Custody) (run : d.Runs events d') {entry : Active}
    (gone : d.workspace.scheduler.Departed entry) :
    d'.workspace.scheduler.Departed entry := by
  induction run with
  | nil => exact gone
  | snoc run step ih =>
    have before := run.custody c
    exact ih.becomes before.sound.toRegistered (step.becomes before)

/-- Who was started and is not current has left. -/
theorem Runs.departed_of_stale (fresh : d₀.Fresh) (run : d₀.Runs events d) {i : Instance}
    (started : i ∈ startedBy events) (stale : d.workspace.isCurrent i = false) :
    d.workspace.scheduler.Departed i.entry := by
  refine ⟨?_, stale⟩
  obtain ⟨handed, next⟩ := run.generations fresh.custody
  have mem : i.generation ∈ (startedBy events).map (·.generation) := List.mem_map_of_mem started
  rw [handed] at mem
  rw [next]
  exact (List.mem_range'_1.mp mem).2

/-- A step that says nothing to read and removes nobody. Unless it starts a batch it has nothing to
do with the scheduler, and if it ends a tick or handles its outcome it changes nothing at all. -/
structure Silent (d : Driver) (event : Event) (d' : Driver) : Prop where
  keeps : d.workspace.scheduler.active <+: d'.workspace.scheduler.active
  tells : ∃ said, d'.workspace.bus.pending.toList = d.workspace.bus.pending.toList ++ said ∧
    ∀ m ∈ said, m.isOutput = false ∧ m.isError = false
  scheduler : (∀ starter batch, event ≠ .start starter batch) →
    d'.workspace.scheduler = d.workspace.scheduler
  unchanged : ∀ ticked, event = .conclude ticked ∨ event = .handle ticked →
    d'.workspace = d.workspace

theorem Silent.of_workspace_eq (same : d'.workspace = d.workspace) : Silent d event d' where
  keeps := same ▸ List.prefix_rfl
  tells := ⟨[], by simp [same], by simp⟩
  scheduler := fun _ => congrArg Workspace.scheduler same
  unchanged := fun _ _ => same

/-- Whatever is left to do for an instance that has left is silent. -/
theorem Step.silent (c : d.Custody) (step : d.Step event d') {i : Instance}
    (actor : event.actor = some i) (gone : d.workspace.isCurrent i = false) :
    Silent d event d' := by
  cases step with
  | start _ ok _ =>
    obtain ⟨-, scripts, e, -, new, -, rfl⟩ := Workspace.startBatch_ok ok
    refine ⟨⟨_, new.active.symm⟩, ⟨e.messages, by simp [Workspace.publish], ?_⟩, ?_, by simp⟩
    · intro m mem
      rw [new.messages] at mem
      split at mem
      · cases mem
      · rw [List.mem_singleton.mp mem]
        exact ⟨rfl, rfl⟩
    · exact fun other => absurd rfl (other _ _)
  | act _ touch =>
    obtain ⟨scheduler, -, said, grown, inputs⟩ := touch.frame
    refine ⟨by simp [scheduler], ⟨said, grown, ?_⟩, fun _ => scheduler, by simp⟩
    intro m mem
    obtain ⟨enabled, rfl⟩ := inputs m mem
    exact ⟨rfl, rfl⟩
  | conclude _ leaves =>
    -- This is the half-finished tick: what it has said until the stop is not published.
    obtain rfl := Option.some.inj actor
    have ending := leaves.ending c.told
    obtain ⟨said, rfl, nothing⟩ := ending.publishes
    rw [Workspace.isCurrent_congr _ ending.entry_eq] at gone
    rw [nothing gone, Workspace.publish_nil]
    exact .of_workspace_eq rfl
  | @handle ticked rest _ =>
    obtain rfl := Option.some.inj actor
    refine .of_workspace_eq ?_
    unfold handled
    cases ticked.outcome with
    | ended _ => exact Workspace.finish_of_stale gone
    | _ => rfl
  | receive _ => cases actor
  | stop _ => cases actor
  | aside _ => cases actor

/-- In every run the generations of the instances that start ascend. Once an instance is not
current any more, then from there on, for whatever goes by its name and generation: it is not
current, neither its end nor the end of a tick of it changes anything, and every step in its tick
or about its outcome is silent. So a later instance of the same name stays as it is. -/
theorem departed_stay_silent (fresh : d₀.Fresh) (before : d₀.Runs past d)
    (after : d.Runs future d') :
    ((startedBy (past ++ future)).map (·.generation)).Pairwise (· < ·) ∧
    ∀ i ∈ startedBy past, d.workspace.isCurrent i = false →
      ∀ j : Instance, j.name = i.name → j.generation = i.generation →
        d'.workspace.isCurrent j = false ∧
        d'.workspace.finish j = d'.workspace ∧
        (∀ e : Line.Ended, (∀ k, e.owner = some k → k.fixed = j.fixed) →
          j.conclude e d'.workspace = (⟨e.owner.getD j, .cancelled⟩, d'.workspace)) ∧
        ∀ event d'', d'.Step event d'' → event.actor = some j → Silent d' event d'' := by
  constructor
  · rw [((before.append after).generations fresh.custody).1]
    exact List.pairwise_lt_range'
  · intro i started stale j name generation
    have custody := before.custody fresh.custody
    have left := after.departed custody (before.departed_of_stale fresh started stale)
    have gone : d'.workspace.isCurrent j = false := by
      unfold Workspace.isCurrent
      rw [name, generation]
      exact left.not_current
    refine ⟨gone, Workspace.finish_of_stale gone,
      fun e mine => Instance.conclude_of_stale mine gone, ?_⟩
    exact fun event d'' step actor => step.silent (after.custody custody) actor gone

/-- A script that was started twice: dropping its first unit leaves its second run alone. -/
theorem overtaken_stays_silent :
    (startedBy overtaking).map (·.generation) = [1, 2] ∧
      overtaken.workspace.isCurrent (.ofText "a" "print 1" 1 1) = false ∧
      givenUp.workspace.finish (.ofText "a" "print 1" 1 1) = givenUp.workspace ∧
      Silent givenUp (.handle ⟨.ofText "a" "print 1" 1 1, .cancelled⟩)
        (givenUp.handled ⟨.ofText "a" "print 1" 1 1, .cancelled⟩ []) := by
  have stale : overtaken.workspace.isCurrent (.ofText "a" "print 1" 1 1) = false := rfl
  obtain ⟨-, silent⟩ :=
    departed_stay_silent idle_fresh idle_runs_overtaken overtaken_step_givenUp.runs
  obtain ⟨-, unheard, -, steps⟩ :=
    silent (.ofText "a" "print 1" 1 1) List.mem_cons_self stale _ rfl rfl
  exact ⟨rfl, stale, unheard, steps _ _ (.handle (.refl _)) rfl⟩

end LineScript.Driver
