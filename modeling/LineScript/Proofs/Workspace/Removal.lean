import LineScript.Proofs.Scheduler.Operations
import LineScript.Workspace

/-!
# Removals

Entries leave a workspace in an order: they are struck from the active set, the front end is told
the new list, and then their batches are counted down. `Workspace.Stage` is where a removal has come
to on the way, and a batch that becomes complete there does so after the front end was told
(`Stage.announced_of_isComplete`).

When it is over a removal has done no more than its scheduler says: `finish_eq` and `stop_eq` put
the end of an instance and a stop as the scheduler's new state and the messages that it asks for.
-/

namespace LineScript

namespace Workspace

variable {ws : Workspace} {gone : List Active} {i : Instance} {target : StopTarget}

@[simp] theorem publish_nil (ws : Workspace) : ws.publish [] = ws := by
  simp [publish, Bus.extend]

/-! ## On the way -/

/-- A removal from its beginning to its end. -/
inductive Stage (ws : Workspace) (gone : List Active) : Workspace → Prop where
  | struck : Stage ws gone (ws.strike gone)
  | told {told : List Active} (h : told <+: gone) :
      Stage ws gone ((ws.strike gone).announce.countDown told)

/-- The last stage of a removal is what the program makes of it. -/
theorem stage_remove (ws : Workspace) (gone : List Active) : ws.Stage gone (ws.remove gone) :=
  .told List.prefix_rfl

/-- A batch that becomes complete on the way does so after the front end was told. -/
theorem Stage.announced_of_isComplete {stage : Workspace} (h : ws.Stage gone stage) {id : Nat}
    (before : ws.scheduler.isComplete id = false) (after : stage.scheduler.isComplete id = true) :
    stage.bus = ws.bus.push (ws.scheduler.without gone).announcement := by
  cases h with
  | struck =>
    -- The table of batches is still as it was.
    have same : (ws.strike gone).scheduler.isComplete id = ws.scheduler.isComplete id := rfl
    rw [same, before] at after
    cases after
  | told _ => rfl

/-! ## When it is over -/

theorem remove_eq (ws : Workspace) (gone : List Active) :
    ws.remove gone =
      { ws.publish [(ws.scheduler.without gone).announcement] with
        scheduler := ws.scheduler.without gone } := by
  have bus : ws.bus.push (ws.scheduler.without gone).announcement =
      ws.bus.extend [(ws.scheduler.without gone).announcement] := by
    simp [Bus.push, Bus.extend]
  simp only [remove, countDown, announce, push, strike, publish, ← bus]
  rfl

theorem finish_of_current (current : ws.isCurrent i = true) :
    ws.finish i = ws.remove [i.entry] := by
  rw [finish, if_pos current]

/-- A late end changes nothing. -/
theorem finish_of_stale (stale : ws.isCurrent i = false) : ws.finish i = ws := by
  rw [finish, stale]
  rfl

theorem stop_of_hit (hit : ws.scheduler.targeted target ≠ []) :
    ws.stop target = ((ws.scheduler.targeted target).map (·.name),
      ws.remove (ws.scheduler.targeted target)) := by
  simp [stop, hit]

theorem stop_of_miss (miss : ws.scheduler.targeted target = []) : ws.stop target = ([], ws) := by
  simp [stop, miss]

theorem finish_eq (ws : Workspace) (i : Instance) :
    ws.finish i =
      { ws.publish (ws.scheduler.finish i).2 with scheduler := (ws.scheduler.finish i).1 } := by
  cases current : ws.isCurrent i with
  | true => rw [finish_of_current current, remove_eq, Scheduler.finish_of_current current]
  | false =>
    rw [finish_of_stale current, Scheduler.finish_of_not_current current, publish_nil]

theorem stop_eq (ws : Workspace) (target : StopTarget) :
    ws.stop target =
      ((ws.scheduler.stop target).names,
        { ws.publish (ws.scheduler.stop target).messages with
          scheduler := (ws.scheduler.stop target).scheduler }) := by
  by_cases miss : ws.scheduler.targeted target = []
  · rw [stop_of_miss miss, Scheduler.stop_of_miss miss, publish_nil]
  · rw [stop_of_hit miss, Scheduler.stop_of_hit miss, remove_eq]

@[simp] theorem finish_scheduler (ws : Workspace) (i : Instance) :
    (ws.finish i).scheduler = (ws.scheduler.finish i).1 := by
  rw [finish_eq]

@[simp] theorem finish_inbox (ws : Workspace) (i : Instance) : (ws.finish i).inbox = ws.inbox := by
  rw [finish_eq]
  rfl

@[simp] theorem finish_store (ws : Workspace) (i : Instance) : (ws.finish i).store = ws.store := by
  rw [finish_eq]
  rfl

@[simp] theorem finish_globals (ws : Workspace) (i : Instance) :
    (ws.finish i).globals = ws.globals := by
  rw [finish_eq]
  rfl

@[simp] theorem finish_entropy (ws : Workspace) (i : Instance) :
    (ws.finish i).entropy = ws.entropy := by
  rw [finish_eq]
  rfl

@[simp] theorem stop_scheduler (ws : Workspace) (target : StopTarget) :
    (ws.stop target).2.scheduler = ws.scheduler.without (ws.scheduler.targeted target) := by
  rw [stop_eq, ← Scheduler.stop_scheduler]

@[simp] theorem stop_inbox (ws : Workspace) (target : StopTarget) :
    (ws.stop target).2.inbox = ws.inbox := by
  rw [stop_eq]
  rfl

@[simp] theorem stop_globals (ws : Workspace) (target : StopTarget) :
    (ws.stop target).2.globals = ws.globals := by
  rw [stop_eq]
  rfl

@[simp] theorem stop_store (ws : Workspace) (target : StopTarget) :
    (ws.stop target).2.store = ws.store := by
  rw [stop_eq]
  rfl

end Workspace

end LineScript
