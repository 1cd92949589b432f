import LineScript.Proofs.Driver.Step

/-!
# Nobody is lost

Every registered instance is in the driver's hands, and no generation is there twice: the
instance waits in the inbox, is at its tick, or its outcome is about to be handled. The driver
lets go only of instances that are not registered any more, so no name stays in the active set
with nobody to tick it. `Custody` says so of a driver, and every step keeps it (`Custody.step`).
-/

namespace LineScript

namespace Scheduler

/-- The entries include the whole active set, and hold no generation twice and none that was not
handed out. -/
structure Covered (s : Scheduler) (entries : List Active) : Prop where
  nodup : (entries.map (·.generation)).Nodup
  generation_lt : ∀ e ∈ entries, e.generation < s.nextGeneration
  active_subset : ∀ e ∈ s.active, e ∈ entries

variable {s : Scheduler} {entries others : List Active} {entry : Active}

theorem Covered.empty : Covered {} [] :=
  ⟨List.nodup_nil, by simp, by simp⟩

theorem Covered.perm (h : s.Covered entries) (same : others.Perm entries) : s.Covered others :=
  ⟨(same.map _).nodup_iff.mpr h.nodup, fun e he => h.generation_lt e (same.mem_iff.mp he),
    fun e he => same.mem_iff.mpr (h.active_subset e he)⟩

/-- Who is covered is known. -/
theorem Covered.knows (h : s.Covered entries) {i : Instance} (mem : i.entry ∈ entries) :
    s.Knows i where
  generation_lt := h.generation_lt i.entry mem
  entry_eq := fun e he same => List.inj_on_of_nodup_map h.nodup (h.active_subset e he) mem same

theorem Covered.enrolled (h : s.Covered entries) {scripts : List (String × String)}
    {e : Enrolment} (new : s.Enrolled scripts e) :
    e.scheduler.Covered (entries ++ (s.newInstances scripts).map Instance.entry) where
  nodup := by
    rw [List.map_append, newInstances_entry_generations]
    refine h.nodup.append List.nodup_range' ?_
    intro generation old added
    obtain ⟨entry, mem, rfl⟩ := List.mem_map.mp old
    have := h.generation_lt entry mem
    simp only [List.mem_range'_1] at added
    omega
  generation_lt := by
    intro entry mem
    rw [new.nextGeneration]
    rcases List.mem_append.mp mem with old | added
    · exact Nat.lt_of_lt_of_le (h.generation_lt entry old) (Nat.le_add_right ..)
    · obtain ⟨i, hi, rfl⟩ := List.mem_map.mp added
      exact (generation_of_mem_newInstances hi).2
  active_subset := by
    intro entry mem
    rw [new.active] at mem
    exact List.mem_append.mpr ((List.mem_append.mp mem).imp_left (h.active_subset entry))

theorem Covered.without (h : s.Covered entries) {gone : List Active} :
    (s.without gone).Covered entries :=
  ⟨h.nodup, h.generation_lt, fun e he => h.active_subset e (mem_without.mp he).1⟩

/-- Whoever is not current may be let go. -/
theorem Covered.drop (h : s.Covered (entry :: entries)) (registered : s.Registered)
    (gone : s.isCurrent entry.name entry.generation = false) : s.Covered entries where
  nodup := (List.nodup_cons.mp h.nodup).2
  generation_lt := fun e he => h.generation_lt e (List.mem_cons_of_mem _ he)
  active_subset := by
    intro e he
    rcases List.mem_cons.mp (h.active_subset e he) with rfl | mem
    · exact absurd rfl (registered.isCurrent_eq_false_iff.mp gone e he rfl)
    · exact mem

/-- A covered entry of the active set has one holder. -/
theorem Covered.count_eq_one (h : s.Covered entries) (mem : entry ∈ s.active) :
    entries.countP (fun e => e.name == entry.name && e.generation == entry.generation) = 1 := by
  have held := h.active_subset entry mem
  -- No other holder has the generation, so to match it is to be the entry.
  have only : ∀ e ∈ entries,
      (e.name == entry.name && e.generation == entry.generation) = (e == entry) := by
    intro e he
    rw [Bool.eq_iff_iff]
    constructor
    · intro same
      rw [Bool.and_eq_true, beq_iff_eq, beq_iff_eq] at same
      exact beq_iff_eq.mpr (List.inj_on_of_nodup_map h.nodup he held same.2)
    · intro same
      simp [beq_iff_eq.mp same]
  rw [List.countP_congr fun e he => by rw [only e he]]
  exact List.count_eq_one_of_mem (h.nodup.of_map _) held

theorem finish_becomes {i : Instance} (known : s.Knows i) (h : s.Registered) :
    s.Becomes (s.finish i).1 := by
  rcases finish_cases s i with ⟨current, eq⟩ | ⟨-, eq⟩
  · rw [eq]
    exact .without (List.singleton_sublist.mpr ((known.isCurrent_iff h).mp current))
  · rw [eq]
    exact .same

end Scheduler

namespace Driver

/-- The scheduler is sound, the instances in the driver's hands cover its active set, and those
who were told to stop or are about to be dropped have left it. -/
structure Custody (d : Driver) : Prop where
  sound : d.workspace.scheduler.Sound
  covered : d.workspace.scheduler.Covered d.entries
  told : ∀ e ∈ d.told, d.workspace.scheduler.Departed e
  cancelled : ∀ t ∈ d.outcomes, t.outcome = .cancelled →
    d.workspace.scheduler.Departed t.inst.entry

variable {d d' : Driver} {event : Event} {events : List Event}

theorem Fresh.custody (fresh : d.Fresh) : d.Custody where
  sound := by
    rw [fresh.scheduler]
    exact Scheduler.Sound.empty
  covered := by
    simpa [entries, held, fresh.scheduler, fresh.inbox, fresh.units, fresh.outcomes] using
      Scheduler.Covered.empty
  told := by simp [fresh.told]
  cancelled := by simp [fresh.outcomes]

theorem count_entries (d : Driver) (e : Active) :
    d.entries.count e = (d.workspace.inbox.map Instance.entry).count e +
      (d.units.map Instance.entry).count e + (d.outcomes.map (·.inst.entry)).count e := by
  simp [entries, held, List.count_append, Function.comp_def, Nat.add_assoc]

theorem Custody.knows (c : d.Custody) {ticked : Ticked} (mem : ticked ∈ d.outcomes) :
    d.workspace.scheduler.Knows ticked.inst := by
  refine c.covered.knows (List.mem_map_of_mem ?_)
  exact List.mem_append_right _ (List.mem_map_of_mem mem)

/-! ## Steps -/

theorem Step.becomes (c : d.Custody) (step : d.Step event d') :
    d.workspace.scheduler.Becomes d'.workspace.scheduler := by
  cases step with
  | start _ ok _ =>
    obtain ⟨startable, scripts, e, names, new, -, rfl⟩ := Workspace.startBatch_ok ok
    exact .enrolled (names ▸ startable.distinct) new
  | receive _ => exact .same
  | act _ touch =>
    show d.workspace.scheduler.Becomes _
    rw [touch.frame.1]
    exact .same
  | conclude _ leaves =>
    obtain ⟨said, rfl, -⟩ := (leaves.ending c.told).publishes
    exact .same
  | @handle ticked rest waits =>
    have known := c.knows (waits.mem_iff.mpr List.mem_cons_self)
    unfold handled
    cases ticked.outcome with
    | running => exact .same
    | ended _ =>
      show d.workspace.scheduler.Becomes (d.workspace.finish ticked.inst).scheduler
      rw [Workspace.finish_scheduler]
      exact Scheduler.finish_becomes known c.sound.toRegistered
    | cancelled => exact .same
  | stop target =>
    rw [Workspace.stop_scheduler]
    exact .without (Scheduler.targeted_sublist _ _)
  | aside h =>
    show d.workspace.scheduler.Becomes _
    rw [h.frame.1]
    exact .same

/-- The instance that is about to be handled, and the others in the driver's hands. -/
theorem Custody.covered_cons (c : d.Custody) {ticked : Ticked} {rest : List Ticked}
    (waits : d.outcomes.Perm (ticked :: rest)) :
    d.workspace.scheduler.Covered
      (ticked.inst.entry :: ({ d with outcomes := rest } : Driver).entries) := by
  refine c.covered.perm (List.perm_iff_count.mpr fun entry => ?_)
  have waiting := (waits.map (·.inst.entry)).count_eq entry
  simp only [count_entries, List.map_cons, List.count_cons] at waiting ⊢
  omega

/-- An instance that goes on stays, and one that is let go is not current. -/
theorem Custody.covered_handled (c : d.Custody) {ticked : Ticked} {rest : List Ticked}
    (waits : d.outcomes.Perm (ticked :: rest)) :
    (d.handled ticked rest).workspace.scheduler.Covered (d.handled ticked rest).entries := by
  have mem : ticked ∈ d.outcomes := waits.mem_iff.mpr List.mem_cons_self
  have registered := c.sound.toRegistered
  have covered := c.covered_cons waits
  unfold handled
  cases outcome : ticked.outcome with
  | running =>
    refine covered.perm (List.perm_iff_count.mpr fun entry => ?_)
    simp only [count_entries, List.map_cons, List.map_append, List.map_nil,
      List.count_append, List.count_cons, List.count_nil]
    omega
  | ended reason =>
    -- Whether or not the instance was still current, it is not after its end.
    simp only [entries, held, Workspace.finish_scheduler, Workspace.finish_inbox]
    have removed : (d.workspace.scheduler.finish ticked.inst).1.Covered
        (ticked.inst.entry :: ({ d with outcomes := rest } : Driver).entries) := by
      rcases Scheduler.finish_cases d.workspace.scheduler ticked.inst with ⟨-, eq⟩ | ⟨-, eq⟩
      · rw [eq]
        exact covered.without
      · rw [eq]
        exact covered
    have after := c.sound.becomes (Scheduler.finish_becomes (c.knows mem) registered)
    exact removed.drop after.toRegistered (Scheduler.finish_not_current registered)
  | cancelled => exact covered.drop registered (c.cancelled ticked mem outcome).not_current

theorem Step.covered (c : d.Custody) (step : d.Step event d') :
    d'.workspace.scheduler.Covered d'.entries := by
  cases step with
  | start _ ok _ =>
    obtain ⟨-, scripts, e, -, new, -, rfl⟩ := Workspace.startBatch_ok ok
    -- The new instances are at the end of the inbox, not of all that the driver holds.
    refine (c.covered.enrolled new).perm (List.perm_iff_count.mpr fun entry => ?_)
    simp only [count_entries, List.count_append, List.map_append, new.instances]
    omega
  | receive first =>
    refine c.covered.perm (List.perm_iff_count.mpr fun entry => ?_)
    simp only [count_entries, first, List.map_cons, List.map_append, List.map_nil,
      List.count_append, List.count_cons, List.count_nil]
    omega
  | act _ touch =>
    obtain ⟨scheduler, inbox, -⟩ := touch.frame
    simpa [entries, held, scheduler, inbox] using c.covered
  | conclude unit leaves =>
    have ending := leaves.ending c.told
    obtain ⟨said, rfl, -⟩ := ending.publishes
    refine c.covered.perm (List.perm_iff_count.mpr fun entry => ?_)
    have units := (unit.map Instance.entry).count_eq entry
    simp only [count_entries, Workspace.publish, List.map_append, List.map_cons, List.map_nil,
      List.count_append, List.count_cons, List.count_nil, ending.entry_eq] at units ⊢
    omega
  | handle waits => exact c.covered_handled waits
  | stop target =>
    simpa [entries, held] using c.covered.without
  | aside h =>
    simpa [entries, held, h.frame.1, h.frame.2] using c.covered

/-- Who is told to stop leaves. -/
theorem departed_of_targeted {s : Scheduler} (h : s.Registered) {target : StopTarget} {e : Active}
    (mem : e ∈ s.targeted target) : (s.without (s.targeted target)).Departed e := by
  have active := (Scheduler.targeted_sublist s target).subset mem
  refine ⟨h.generation_lt e active, ?_⟩
  rw [h.without.isCurrent_eq_false_iff]
  intro other left name
  exact absurd name.symm ((Scheduler.mem_without.mp left).2 e mem)

theorem Custody.step (c : d.Custody) (step : d.Step event d') : d'.Custody := by
  -- Those who were told or given up have left, and nobody who has left comes back. What is left to
  -- show is that the ones who join them in this step have left as well.
  have change := step.becomes c
  have stays : ∀ {e : Active}, d.workspace.scheduler.Departed e →
      d'.workspace.scheduler.Departed e :=
    fun gone => gone.becomes c.sound.toRegistered change
  refine ⟨c.sound.becomes change, step.covered c, ?_, ?_⟩
  · intro e mem
    cases step with
    | handle _ =>
      refine stays (c.told e ?_)
      unfold handled at mem
      split at mem <;> exact mem
    | stop target =>
      rcases List.mem_append.mp mem with old | new
      · exact stays (c.told e old)
      · rw [Workspace.stop_scheduler]
        exact departed_of_targeted c.sound.toRegistered new
    | _ => exact stays (c.told e mem)
  · intro t mem cancelled
    cases step with
    | conclude unit leaves =>
      rcases List.mem_append.mp mem with old | new
      · exact stays (c.cancelled t old cancelled)
      · rw [List.mem_singleton.mp new] at cancelled ⊢
        have ending := leaves.ending c.told
        have mine := unit.mem_iff.mpr List.mem_cons_self
        rw [ending.entry_eq]
        refine stays ⟨?_, ending.cancelled cancelled⟩
        refine c.covered.generation_lt _ (List.mem_map_of_mem ?_)
        exact List.mem_append_left _ (List.mem_append_right _ mine)
    | handle waits =>
      refine stays (c.cancelled t (waits.mem_iff.mpr (List.mem_cons_of_mem _ ?_)) cancelled)
      unfold handled at mem
      split at mem <;> exact mem
    | _ => exact stays (c.cancelled t mem cancelled)

theorem Runs.custody (c : d.Custody) (run : d.Runs events d') : d'.Custody := by
  induction run with
  | nil => exact c
  | snoc _ step ih => exact ih.step step

/-! ## What is handled -/

/-- An instance that is let go is in nobody's hands, and is not current. -/
theorem Custody.handled_released (c : d.Custody) {ticked : Ticked} {rest : List Ticked}
    (waits : d.outcomes.Perm (ticked :: rest)) (leaves : ticked.outcome ≠ .running) :
    (d.handled ticked rest).workspace.isCurrent ticked.inst = false ∧
      ∀ i ∈ (d.handled ticked rest).held, i.generation ≠ ticked.inst.generation := by
  have others : ∀ i ∈ ({ d with outcomes := rest } : Driver).held,
      i.generation ≠ ticked.inst.generation := by
    intro i mem same
    have entry : i.entry ∈ ({ d with outcomes := rest } : Driver).entries :=
      List.mem_map_of_mem mem
    exact (List.nodup_cons.mp (c.covered_cons waits).nodup).1
      (List.mem_map.mpr ⟨i.entry, entry, same⟩)
  unfold handled
  cases outcome : ticked.outcome with
  | running => exact absurd outcome leaves
  | ended reason =>
    have left : (d.workspace.finish ticked.inst).isCurrent ticked.inst = false := by
      unfold Workspace.isCurrent
      rw [Workspace.finish_scheduler]
      exact Scheduler.finish_not_current c.sound.toRegistered
    exact ⟨left, by simpa [held] using others⟩
  | cancelled =>
    have gone := c.cancelled ticked (waits.mem_iff.mpr List.mem_cons_self) outcome
    exact ⟨gone.not_current, others⟩

/-- Each entry of the active set has exactly one instance in the driver's hands. -/
theorem Custody.held_once (c : d.Custody) {e : Active} (active : e ∈ d.workspace.scheduler.active) :
    d.held.countP (fun i => i.name == e.name && i.generation == e.generation) = 1 := by
  have once := c.covered.count_eq_one active
  rw [entries, List.countP_map] at once
  exact once

end Driver

end LineScript
