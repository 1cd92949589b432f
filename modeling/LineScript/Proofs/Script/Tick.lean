import LineScript.Proofs.Line.Effects
import LineScript.Proofs.Workspace.Removal
import LineScript.Script.Tick

/-!
# What a tick comes to

A tick does the steps of a line and then comes to its end: what the line has said is published, all
of it or, if the instance was stopped, nothing. The name, the generation and the batch of an
instance are the same before and after.

* `Instance.Ticks` says so of a run, from wherever it goes on after a wait.
* `Instance.Ending` is all that the end of a tick can do.
-/

namespace LineScript

namespace Workspace

variable {ws : Workspace} {i j : Instance}

theorem isCurrent_congr (ws : Workspace) (same : j.entry = i.entry) :
    ws.isCurrent j = ws.isCurrent i := by
  show ws.scheduler.isCurrent j.entry.name j.entry.generation = _
  rw [same]
  rfl

end Workspace

namespace Instance

variable {i : Instance} {ws ws' : Workspace} {ticked : Ticked}

/-- How a tick ends: it has found no line, or the line of the instance is over and its end is
decided on. -/
inductive Concludes (i : Instance) (ws : Workspace) : Ticked → Workspace → Prop where
  | exhausted (h : i.source[i.counter]? = none) : Concludes i ws ⟨i, .ended .completed⟩ ws
  | decided (e : Line.Ended) (j : Instance) (owner : e.owner = some j) (same : j.fixed = i.fixed) :
      Concludes i ws (i.conclude e ws).1 (i.conclude e ws).2

/-- A run that does the steps of a line of the instance and then comes to the end of its tick. -/
def Ticks (i : Instance) (ws : Workspace) (run : Run Ticked) : Prop :=
  run.Obeys (Line.Effects (some i.name))
    (fun ws ticked last => ∃ before, Line.Effects (some i.name) ws before ∧
      i.Concludes before ticked last) ws

theorem tick_ticks (i : Instance) (ws : Workspace) : i.Ticks ws (i.tick ws) := by
  unfold tick
  split
  · rename_i none
    exact .done ⟨ws, .refl, .exhausted none⟩
  · rename_i line _
    have evaluated := Line.evaluate_actsFor (Line.depthBound line i.extent) {} line (some i) [] ws
    generalize Line.evaluate (Line.depthBound line i.extent) {} line (some i) [] ws = run
      at evaluated ⊢
    refine Run.Obeys.bind evaluated ?_
    rintro ws e last ⟨steps, kept⟩
    obtain ⟨j, owner, same⟩ := Option.map_eq_some_iff.mp kept
    exact .done ⟨last, steps, .decided e j owner same⟩

theorem advance_entry (i : Instance) (evaluation : Evaluation) :
    (i.advance evaluation).inst.entry = i.entry := by
  unfold advance
  split
  · rfl
  · split
    · rfl
    · split <;> rfl

theorem advance_outcome_ne (i : Instance) (evaluation : Evaluation) :
    (i.advance evaluation).outcome ≠ .cancelled := by
  unfold advance
  split
  · simp
  · split
    · simp
    · split <;> simp

/-- The end of the tick of an instance that was stopped: it is found out and nothing happens. -/
theorem conclude_of_stale {e : Line.Ended} (mine : ∀ j, e.owner = some j → j.fixed = i.fixed)
    (stale : ws.isCurrent i = false) :
    i.conclude e ws = (⟨e.owner.getD i, .cancelled⟩, ws) := by
  have gone : ws.isCurrent (e.owner.getD i) = false := by
    cases owner : e.owner with
    | none => exact stale
    | some j =>
      rw [Option.getD_some, ws.isCurrent_congr (entry_eq_of_fixed_eq (mine j owner))]
      exact stale
  unfold conclude
  simp [gone]

/-- What the end of a tick comes to: the instance is the one that it was, it is given up only if it
was stopped, and the workspace is as it was but for what the line has said. One that was stopped
has said nothing. -/
structure Ending (i : Instance) (ws : Workspace) (ticked : Ticked) (ws' : Workspace) : Prop where
  entry_eq : ticked.inst.entry = i.entry
  cancelled : ticked.outcome = .cancelled → ws.isCurrent i = false
  publishes : ∃ said, ws' = ws.publish said ∧ (ws.isCurrent i = false → said = [])

/-- An instance that was stopped is given up, with the workspace as it is. -/
theorem Ending.of_stale {j : Instance} (same : j.fixed = i.fixed)
    (stale : ws.isCurrent i = false) : i.Ending ws ⟨j, .cancelled⟩ ws :=
  ⟨entry_eq_of_fixed_eq same, fun _ => stale, [], by simp, fun _ => rfl⟩

theorem Concludes.ending (h : i.Concludes ws ticked ws') : i.Ending ws ticked ws' := by
  cases h with
  | exhausted _ => exact ⟨rfl, by simp, [], by simp, fun _ => rfl⟩
  | decided e j owner same =>
    cases running : ws.isCurrent i with
    | false =>
      have mine : ∀ k, e.owner = some k → k.fixed = i.fixed := by
        intro k other
        rw [owner] at other
        cases other
        exact same
      rw [conclude_of_stale mine running, owner]
      exact .of_stale same running
    | true =>
      -- The owner of the line is the instance, so what holds of one holds of the other.
      have entry := entry_eq_of_fixed_eq same
      have current : ws.isCurrent j = true := by rw [ws.isCurrent_congr entry, running]
      unfold conclude
      simp only [owner, Option.getD_some, current, if_true]
      refine ⟨?_, ?_, e.transcript, rfl, by simp [running]⟩
      · rw [← entry]
        exact advance_entry j e.evaluation
      · exact fun h => absurd h (advance_outcome_ne j e.evaluation)

end Instance

end LineScript
