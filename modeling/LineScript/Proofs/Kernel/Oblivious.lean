import LineScript.Proofs.Kernel.Rounds
import LineScript.Proofs.Line.Oblivious

/-!
# Kernels do not notice how scripts are saved

Two kernels that differ in nothing but the line endings of their scripts do the same and answer the
same, whatever their hosts ask of them (`Resaved.replies`). One operation after the other keeps them
so, because what waits in them goes on alike.

* `Job.poll_resaved` is a turn of a job, `Resaved.pollLine` one of a line.
* `Resaved.work` and `Resaved.await` are whole rounds and waits, by induction on the turns.
* `Reachable.steady` says that nothing else ever waits in a kernel that is in use.
-/

namespace LineScript

/-! ## Turns of jobs -/

/-- A job in this phase goes on alike with the same scripts saved anew. -/
def Phase.Overlooks : Phase → Prop
  | .waiting rest => Run.Overlooks rest.next
  | _ => True

namespace Job

/-- Where the same turn leaves a job in either of two workspaces. -/
structure Resaved (store : Store) (polled polled' : Option Job × Workspace) : Prop where
  eq : polled' = (polled.1, polled.2.restock store)
  scripts : polled.2.store.Resaved store
  steady : ∀ job ∈ polled.1, job.phase.Overlooks

variable {job : Job} {ws : Workspace} {store : Store}

theorem settle_resaved (scripts : ws.store.Resaved store) {run : Run Ticked}
    (steady : run.Steady ws.store) :
    Resaved store (job.settle ws run) (job.settle (ws.restock store) (run.restock store)) := by
  -- The store that a run keeps is an index, so it has to be a variable for the cases.
  generalize kept : ws.store = before at steady
  cases steady with
  | @done ticked last =>
    obtain ⟨i, outcome⟩ := ticked
    cases outcome with
    | running => exact ⟨rfl, kept ▸ scripts, by simp [settle, Phase.Overlooks]⟩
    | ended reason =>
      refine ⟨congrArg (Prod.mk none) (last.finish_restock store i), ?_, by simp [settle]⟩
      show (last.finish i).store.Resaved store
      rw [last.finish_store, ← kept]
      exact scripts
    | cancelled => exact ⟨rfl, kept ▸ scripts, by simp [settle]⟩
  | await alike rest =>
    refine ⟨rfl, kept ▸ scripts, ?_⟩
    rintro _ ⟨⟩
    exact ⟨alike, rest⟩
  | endless => exact ⟨rfl, scripts, by simp [settle, Phase.Overlooks]⟩

/-- A job that stays as it is, or rests. -/
theorem Resaved.of_stays (scripts : ws.store.Resaved store) (overlooks : job.phase.Overlooks) :
    Resaved store (some job, ws) (some job, ws.restock store) := by
  refine ⟨rfl, scripts, ?_⟩
  rintro _ ⟨⟩
  exact overlooks

theorem abandon_resaved (scripts : ws.store.Resaved store) :
    Resaved store (none, job.abandon ws) (none, job.abandon (ws.restock store)) := by
  unfold abandon
  cases job.phase with
  | waiting rest =>
    refine ⟨congrArg (Prod.mk none) (rest.wait.abandon_restock ws store), ?_, by simp⟩
    show (rest.wait.abandon ws).store.Resaved store
    rw [rest.wait.abandon_store]
    exact scripts
  | _ => exact ⟨rfl, scripts, by simp⟩

theorem proceed_resaved (scripts : ws.store.Resaved store) (overlooks : job.phase.Overlooks) :
    Resaved store (job.proceed ws) (job.proceed (ws.restock store)) := by
  unfold proceed
  cases phase : job.phase with
  | fresh => exact .of_stays scripts trivial
  | due =>
    have ticked := job.inst.tick_overlooks
    show Resaved store _ (job.settle (ws.restock store) (job.inst.tick (ws.restock store)))
    rw [ticked.alike ws store scripts]
    exact settle_resaved scripts (ticked.steady ws)
  | waiting rest =>
    have goesOn : Run.Overlooks rest.next := by
      rw [phase] at overlooks
      exact overlooks
    show Resaved store
      (if rest.wait.isOver ws then _ else _) (if rest.wait.isOver (ws.restock store) then _ else _)
    rw [rest.wait.isOver_restock, rest.wait.remain_restock]
    split
    · rw [goesOn.alike ws store scripts]
      exact settle_resaved scripts (goesOn.steady ws)
    · refine .of_stays ?_ overlooks
      rw [rest.wait.remain_store]
      exact scripts
  | resting => exact .of_stays scripts overlooks
  | lost => exact .of_stays scripts overlooks

/-- A turn of a job comes to the same with the same scripts saved anew. -/
theorem poll_resaved (scripts : ws.store.Resaved store) (overlooks : job.phase.Overlooks) :
    Resaved store (job.poll ws) (job.poll (ws.restock store)) := by
  unfold poll
  rw [show job.isStale (ws.restock store) = job.isStale ws from rfl]
  split
  · exact abandon_resaved scripts
  · exact proceed_resaved scripts overlooks

theorem rise_overlooks (overlooks : job.phase.Overlooks) : job.rise.phase.Overlooks := by
  unfold rise
  split
  · trivial
  · exact overlooks

end Job

/-- A line in this state goes on alike with the same scripts saved anew. -/
def LineState.Overlooks : LineState → Prop
  | .suspended rest => Run.Overlooks rest.next
  | _ => True

namespace Kernel

/-- The kernel with another store. -/
def restock (k : Kernel) (store : Store) : Kernel :=
  { k with workspace := k.workspace.restock store }

/-- All that waits in the kernel goes on alike with the same scripts saved anew. -/
structure Steady (k : Kernel) : Prop where
  jobs : ∀ job ∈ k.jobs, job.phase.Overlooks
  lines : ∀ line ∈ k.lines, line.state.Overlooks

/-- The second kernel is the first one, but on the same scripts saved anew. -/
structure Resaved (store : Store) (k k' : Kernel) : Prop where
  eq : k' = k.restock store
  scripts : k.workspace.store.Resaved store
  steady : k.Steady

/-- Two kernels that are still alike after they have given the same answer. -/
def Alike {α : Type} (store : Store) (result result' : α × Kernel) : Prop :=
  result'.1 = result.1 ∧ result.2.Resaved store result'.2

variable {k k' : Kernel} {store : Store}

/-! ## Calls -/

section

variable (k store)

theorem enqueue_restock (worker : Worker) :
    (k.restock store).enqueue worker = (k.enqueue worker).restock store := by
  have queue : (k.restock store).queue = k.queue := rfl
  unfold enqueue
  rw [queue]
  split <;> rfl

theorem call_restock (party : Party) :
    (k.restock store).call party = (k.call party).restock store := by
  cases party with
  | line id => exact k.enqueue_restock store (.line id)
  | job generation =>
    have called := enqueue_restock
      { k with ready := if generation ∈ k.ready then k.ready else k.ready ++ [generation] } store
      .driver
    exact called

theorem foldl_call_restock (parties : List Party) :
    parties.foldl call (k.restock store) = (parties.foldl call k).restock store := by
  induction parties generalizing k with
  | nil => rfl
  | cons party rest ih => rw [List.foldl_cons, List.foldl_cons, call_restock, ih]

theorem able_restock : (k.restock store).able = k.able :=
  rfl

theorem callReady_restock : (k.restock store).callReady = k.callReady.restock store := by
  simp only [callReady, able_restock, foldl_call_restock]
  show (if k.workspace.inbox.isEmpty && k.ready.isEmpty then _ else _) = _
  split
  · rfl
  · exact enqueue_restock _ store .driver

theorem moveBack_restock (party : Party) :
    (k.restock store).moveBack party = (k.moveBack party).restock store := by
  have parties : (k.restock store).parties = k.parties := rfl
  unfold moveBack
  rw [parties]
  split <;> rfl

end

/-- What waits is the same but for what goes on alike anyway. -/
theorem Steady.congr (h : k.Steady)
    (jobs : ∀ job ∈ k'.jobs, job ∈ k.jobs ∨ job.phase.Overlooks)
    (lines : ∀ line ∈ k'.lines, line ∈ k.lines ∨ line.state.Overlooks) : k'.Steady where
  jobs job mem := (jobs job mem).elim (h.jobs job) id
  lines line mem := (lines line mem).elim (h.lines line) id

theorem Steady.same (h : k.Steady) (same : k.Same k') : k'.Steady :=
  h.congr (fun _ mem => .inl (same.jobs ▸ mem)) fun _ mem => .inl (same.lines ▸ mem)

/-- What does not depend on the store is read off the same. -/
theorem Resaved.reads {α : Type} (h : k.Resaved store k') (read : Kernel → α)
    (blind : read (k.restock store) = read k) : read k' = read k := by
  rw [h.eq, blind]

/-- Something that is done to the order of the next turns only. -/
theorem Resaved.reorder (h : k.Resaved store k') {f : Kernel → Kernel} (same : k.Same (f k))
    (eq : f (k.restock store) = (f k).restock store) : (f k).Resaved store (f k') where
  eq := by rw [h.eq, eq]
  scripts := same.workspace ▸ h.scripts
  steady := h.steady.same same

theorem Resaved.callReady (h : k.Resaved store k') : k.callReady.Resaved store k'.callReady :=
  h.reorder k.callReady_same (k.callReady_restock store)

/-- Something that is done to the workspace only. -/
theorem Resaved.aside (h : k.Resaved store k') {f : Workspace → Workspace}
    (eq : f (k.workspace.restock store) = (f k.workspace).restock store)
    (kept : (f k.workspace).store = k.workspace.store) :
    ({ k with workspace := f k.workspace } : Kernel).Resaved store
      { k' with workspace := f k'.workspace } := by
  obtain ⟨rfl, scripts, steady⟩ := h
  refine ⟨?_, ?_, steady.jobs, steady.lines⟩
  · show ({ k.restock store with workspace := f (k.workspace.restock store) } : Kernel) = _
    rw [eq]
    rfl
  · show (f k.workspace).store.Resaved store
    rw [kept]
    exact scripts

/-! ## Lines -/

theorem Steady.line (h : k.Steady) {id : Nat} {state : LineState}
    (here : k.line? id = some state) : state.Overlooks := by
  obtain ⟨line, found, rfl⟩ := Option.map_eq_some_iff.mp here
  exact h.lines line (List.mem_of_find?_eq_some found)

theorem Resaved.removeLine (h : k.Resaved store k') (id : Nat) :
    (k.removeLine id).Resaved store (k'.removeLine id) := by
  obtain ⟨rfl, scripts, steady⟩ := h
  exact ⟨rfl, scripts,
    steady.congr (fun _ mem => .inl mem) fun _ mem => .inl (List.mem_of_mem_filter mem)⟩

theorem Resaved.setLine (h : k.Resaved store k') (id : Nat) (state : LineState) {ws : Workspace}
    (overlooks : state.Overlooks) (scripts : ws.store.Resaved store) :
    (k.setLine id state ws).Resaved store (k'.setLine id state (ws.restock store)) := by
  obtain ⟨rfl, -, steady⟩ := h
  have changed : Resaved store
      { k with
        workspace := ws
        lines := k.lines.map fun l => if l.id = id then { l with state } else l }
      { k.restock store with
        workspace := ws.restock store
        lines := k.lines.map fun l => if l.id = id then { l with state } else l } := by
    refine ⟨rfl, scripts, steady.congr (fun _ mem => .inl mem) fun line mem => ?_⟩
    obtain ⟨old, hold, eq⟩ := List.mem_map.mp mem
    split at eq
    · subst eq
      exact .inr overlooks
    · subst eq
      exact .inl hold
  exact changed.reorder (f := (moveBack · (.line id))) (moveBack_same _ _) (moveBack_restock _ _ _)

theorem Resaved.settleLine (h : k.Resaved store k') (id : Nat) {run : Run Evaluation}
    (steady : run.Steady k.workspace.store) :
    (k.settleLine id run).Resaved store (k'.settleLine id (run.restock store)) := by
  generalize kept : k.workspace.store = before at steady
  cases steady with
  | done => exact h.setLine id _ trivial (kept ▸ h.scripts)
  | await alike rest => exact h.setLine id (.suspended ⟨_, _⟩) ⟨alike, rest⟩ (kept ▸ h.scripts)
  | endless =>
    have lost := h.setLine id .lost trivial h.scripts
    obtain ⟨rfl, -, -⟩ := h
    exact lost

theorem Resaved.discard (h : k.Resaved store k') (id : Nat) (wait : Wait) :
    (k.discard id wait).Resaved store (k'.discard id wait) := by
  have removed := h.removeLine id
  refine Resaved.callReady (removed.aside (f := fun ws => (wait.abandon ws).endRequest) ?_ ?_)
  · rw [wait.abandon_restock, Workspace.endRequest_restock]
  · rw [Workspace.endRequest_store, wait.abandon_store]

theorem Resaved.dropLine (h : k.Resaved store k') (id : Nat) :
    (k.dropLine id).Resaved store (k'.dropLine id) := by
  unfold Kernel.dropLine
  rw [h.reads (·.line? id) rfl]
  split
  · exact h.discard id _
  · exact h.discard id _
  · exact h.removeLine id

theorem Resaved.cancelLine (h : k.Resaved store k') (id : Nat) :
    (k.cancelLine id).Resaved store (k'.cancelLine id) := by
  unfold Kernel.cancelLine
  rw [h.reads (·.line? id) rfl]
  split
  · rename_i rest _
    have set := h.setLine id (.cancelled rest) trivial h.scripts
    obtain ⟨rfl, -, -⟩ := h
    exact set.callReady
  · exact h.dropLine id

theorem Resaved.takeLine (h : k.Resaved store k') (id : Nat) :
    Alike store (k.takeLine id) (k'.takeLine id) := by
  unfold Kernel.takeLine
  rw [h.reads (·.line? id) rfl]
  split <;> exact ⟨rfl, h.removeLine id⟩

/-- A turn of a line comes to the same. -/
theorem Resaved.pollLine (h : k.Resaved store k') (id : Nat) :
    (k.pollLine id).Resaved store (k'.pollLine id) := by
  unfold Kernel.pollLine
  rw [h.reads (·.line? id) rfl]
  cases here : k.line? id with
  | none => exact h
  | some state =>
    have overlooks := h.steady.line here
    have workspace : k'.workspace = k.workspace.restock store := by
      rw [h.eq]
      rfl
    cases state with
    | unstarted text =>
      have begun := Line.runRequest_overlooks text
      show Resaved store _ (k'.settleLine id (Line.runRequest text k'.workspace))
      rw [workspace, begun.alike _ _ h.scripts]
      exact h.settleLine id (begun.steady _)
    | suspended rest =>
      show Resaved store (if rest.wait.isOver k.workspace then _ else _)
        (if rest.wait.isOver k'.workspace then k'.settleLine id (rest.next k'.workspace) else _)
      have ended : rest.wait.isOver k'.workspace = rest.wait.isOver k.workspace := by
        rw [workspace, rest.wait.isOver_restock]
      rw [ended]
      split
      · rw [workspace, overlooks.alike _ _ h.scripts]
        exact h.settleLine id (overlooks.steady _)
      · exact h.aside (f := rest.wait.remain) (rest.wait.remain_restock _ _)
          (rest.wait.remain_store _)
    | cancelled rest => exact h.discard id rest.wait
    | finished evaluation => exact h
    | lost => exact h

/-! ## Jobs -/

theorem Resaved.receive (h : k.Resaved store k') : k.receive.Resaved store k'.receive := by
  obtain ⟨rfl, scripts, steady⟩ := h
  refine Resaved.callReady ⟨rfl, scripts, steady.congr (fun job mem => ?_) fun _ mem => .inl mem⟩
  rcases List.mem_append.mp mem with old | new
  · exact .inl old
  · obtain ⟨i, -, rfl⟩ := List.mem_map.mp new
    exact .inr trivial

theorem Resaved.pollJob (h : k.Resaved store k') (generation : Nat) :
    (k.pollJob generation).Resaved store (k'.pollJob generation) := by
  unfold Kernel.pollJob
  rw [h.reads (·.job? generation) rfl]
  split
  · rename_i job here
    have mem := List.mem_of_find?_eq_some here
    have polled := Job.poll_resaved h.scripts (h.steady.jobs job mem)
    obtain ⟨rfl, -, steady⟩ := h
    refine ⟨?_, polled.scripts, steady.congr (fun other mem => ?_) fun _ mem => .inl mem⟩
    · show (k.restock store).settleJob generation (job.poll (k.workspace.restock store)) = _
      rw [polled.eq]
      rfl
    · rcases List.mem_append.mp mem with old | new
      · exact .inl (List.mem_of_mem_filter old)
      · exact .inr (polled.steady other (Option.mem_toList.mp new))
  · exact h

theorem Resaved.seeTo (turns : Nat) (h : k.Resaved store k') :
    (k.seeTo turns).Resaved store (k'.seeTo turns) := by
  induction turns generalizing k k' with
  | zero => exact h
  | succ turns ih =>
    rw [Kernel.seeTo, Kernel.seeTo, h.reads Kernel.ready rfl]
    cases k.ready with
    | nil => exact h
    | cons generation rest =>
      have taken : Resaved store { k with ready := rest } { k' with ready := rest } :=
        h.reorder (f := fun k => { k with ready := rest }) ⟨rfl, rfl, rfl⟩ rfl
      have polled := (taken.pollJob generation).callReady
      refine ih ?_
      rw [polled.reads (·.isUnderWay generation) rfl]
      split
      · exact polled
      · exact polled.receive

/-! ## Rounds -/

theorem Resaved.turn (h : k.Resaved store k') (turns : Nat) (worker : Worker) :
    (k.turn turns worker).Resaved store (k'.turn turns worker) := by
  cases worker with
  | line id => exact h.pollLine id
  | driver => exact h.receive.seeTo turns

/-- The queue is worked off alike, by induction on the turns. -/
theorem Resaved.work (turns : Nat) (h : k.Resaved store k') :
    (k.work turns).Resaved store (k'.work turns) := by
  induction turns generalizing k k' with
  | zero => exact h
  | succ turns ih =>
    rw [Kernel.work, Kernel.work, h.reads Kernel.queue rfl]
    cases k.queue with
    | nil => exact h
    | cons worker rest =>
      have turned := h.turn (turns + 1) worker
      have erased := turned.reorder (f := fun k => { k with queue := k.queue.erase worker })
        ⟨rfl, rfl, rfl⟩ rfl
      exact ih erased.callReady

theorem Resaved.beginRound (h : k.Resaved store k') :
    k.beginRound.Resaved store k'.beginRound := by
  obtain ⟨rfl, scripts, steady⟩ := h
  refine Resaved.callReady ⟨rfl, scripts, ?_, steady.lines⟩
  intro job mem
  obtain ⟨old, hold, rfl⟩ := List.mem_map.mp mem
  exact Job.rise_overlooks (steady.jobs old hold)

theorem Resaved.passTo (h : k.Resaved store k') (time : Nat) :
    (k.passTo time).Resaved store (k'.passTo time) :=
  Resaved.callReady (h.aside (f := fun ws => { ws with now := max ws.now time }) rfl rfl)

/-! ## Waits -/

theorem Resaved.poll (h : k.Resaved store k') (goal : Goal) :
    (goal.poll k).Resaved store (goal.poll k') := by
  cases goal with
  | line id => exact (h.pollLine id).callReady
  | _ => exact h

/-- A wait ends alike, by induction on the rounds. -/
theorem Resaved.await (goal : Goal) (limit : Nat) (rounds : Nat) (h : k.Resaved store k') :
    Alike store (Kernel.await goal limit rounds k) (Kernel.await goal limit rounds k') := by
  induction rounds generalizing k k' with
  | zero => exact ⟨rfl, h⟩
  | succ rounds ih =>
    have polled := h.poll goal
    have worked := polled.work rounds
    rw [Kernel.await, Kernel.await]
    dsimp only
    rw [polled.reads (goal.isReached ·) (by cases goal <;> rfl), polled.reads (·.workspace.now) rfl]
    split
    · exact ⟨rfl, polled⟩
    · split
      · exact ⟨rfl, polled⟩
      · rw [worked.reads (goal.isReady ·) (by cases goal <;> rfl), worked.reads resting rfl,
          worked.reads (·.nextTime limit) rfl]
        split
        · exact ih worked.beginRound
        · exact ih (worked.passTo _)

/-! ## The host -/

theorem Resaved.submit (h : k.Resaved store k') (text : String) :
    Alike store (k.submit text) (k'.submit text) := by
  obtain ⟨rfl, scripts, steady⟩ := h
  refine ⟨rfl, rfl, scripts, steady.congr (fun _ mem => .inl mem) fun line mem => ?_⟩
  rcases List.mem_append.mp mem with old | new
  · exact .inl old
  · rw [List.mem_singleton.mp new]
    exact .inr trivial

theorem Resaved.spawn (h : k.Resaved store k') (text : String) :
    Alike store (k.spawn text) (k'.spawn text) := by
  have submitted := h.submit text
  refine ⟨submitted.1, ?_⟩
  have line := submitted.2.reorder
    (f := fun l => { l with parties := l.parties ++ [.line (k.submit text).1] }) ⟨rfl, rfl, rfl⟩ rfl
  obtain ⟨rfl, -, -⟩ := h
  exact line.callReady

/-- A start comes to the same, whether it is refused or not. -/
theorem Resaved.start (h : k.Resaved store k') (names : List String) :
    (∃ e, k.start names = .error e ∧ k'.start names = .error e) ∨
      ∃ started last last', k.start names = .ok (started, last) ∧
        k'.start names = .ok (started, last') ∧ last.Resaved store last' := by
  have batch := Workspace.startBatch_restock h.scripts none names
  obtain ⟨rfl, scripts, steady⟩ := h
  have workspace : (k.restock store).workspace = k.workspace.restock store := rfl
  simp only [Kernel.start, workspace, batch]
  cases started : k.workspace.startBatch none names with
  | error e => exact .inl ⟨e, rfl, rfl⟩
  | ok result =>
    refine .inr ⟨_, _, _, rfl, rfl, Resaved.callReady ⟨rfl, ?_, steady.jobs, steady.lines⟩⟩
    show result.2.store.Resaved store
    rw [Workspace.startBatch_store started]
    exact scripts

theorem Resaved.drain (h : k.Resaved store k') : Alike store k.drain k'.drain := by
  obtain ⟨rfl, scripts, steady⟩ := h
  exact ⟨rfl, rfl, scripts, steady.jobs, steady.lines⟩

theorem Resaved.provideInput (h : k.Resaved store k') (line : String) :
    (k.provideInput line).Resaved store (k'.provideInput line) :=
  Resaved.callReady (h.aside (f := (·.provideInput line)) rfl rfl)

theorem Resaved.stop (h : k.Resaved store k') (target : StopTarget) :
    Alike store (k.stop target) (k'.stop target) := by
  have same := k.workspace.stop_restock store target
  have stopped := h.aside (f := fun ws => (ws.stop target).2) (congrArg Prod.snd same)
    (k.workspace.stop_store target)
  obtain ⟨rfl, -, -⟩ := h
  refine ⟨?_, stopped.callReady⟩
  show ((k.workspace.restock store).stop target).1 = (k.workspace.stop target).1
  rw [same]

theorem Alike.exists_eq {α : Type} {result result' : α × Kernel}
    (alike : Alike store result result') : ∃ value last last',
      result = (value, last) ∧ result' = (value, last') ∧ last.Resaved store last' :=
  ⟨result.1, result.2, result'.2, rfl, Prod.ext alike.1 rfl, alike.2⟩

theorem Resaved.run (h : k.Resaved store k') (effort : Effort) (text : String) :
    Alike store (k.run effort text) (k'.run effort text) := by
  obtain ⟨ending, last, last', here, there, same⟩ := ((h.submit text).2.await
    (.line (k.submit text).1) (k.workspace.now + effort.patience) effort.rounds).exists_eq
  unfold Kernel.run
  dsimp only
  rw [h.reads (·.workspace.now) rfl, h.reads (fun k => (k.submit text).1) rfl, here, there]
  cases ending with
  | reached => exact same.takeLine _
  | timedOut => exact ⟨rfl, same.dropLine _⟩
  | unfinished => exact ⟨rfl, same.dropLine _⟩

theorem Resaved.cancel (h : k.Resaved store k') (rounds id : Nat) :
    (k.cancel rounds id).Resaved store (k'.cancel rounds id) := by
  have awaited := (h.cancelLine id).await (.outcome id) (k.workspace.now + 1) rounds
  obtain ⟨rfl, -, -⟩ := h
  exact awaited.2

theorem Resaved.awaitLine (h : k.Resaved store k') (effort : Effort) (id : Nat) :
    Alike store (k.awaitLine effort id) (k'.awaitLine effort id) := by
  obtain ⟨ending, last, last', here, there, same⟩ := (h.await (.outcome id)
    (k.workspace.now + effort.patience) effort.rounds).exists_eq
  unfold Kernel.awaitLine
  rw [h.reads (·.workspace.now) rfl, here, there]
  cases ending with
  | reached => exact same.takeLine id
  | timedOut => exact ⟨rfl, same.cancel _ id⟩
  | unfinished => exact ⟨rfl, same.cancel _ id⟩

theorem Resaved.awaitLines (effort : Effort) (ids : List Nat) (h : k.Resaved store k') :
    Alike store (Kernel.awaitLines effort ids k) (Kernel.awaitLines effort ids k') := by
  induction ids generalizing k k' with
  | nil => exact ⟨rfl, h⟩
  | cons id rest ih =>
    have first := h.awaitLine effort id
    have others := ih first.2
    refine ⟨?_, others.2⟩
    show _ :: _ = _ :: _
    rw [first.1, others.1]

theorem Resaved.waitIdle (h : k.Resaved store k') (effort : Effort) :
    Alike store (k.waitIdle effort) (k'.waitIdle effort) := by
  obtain ⟨ending, last, last', here, there, same⟩ := (h.await .idle
    (k.workspace.now + effort.patience) effort.rounds).exists_eq
  unfold Kernel.waitIdle
  rw [h.reads (·.workspace.now) rfl, here, there]
  cases ending <;> exact ⟨rfl, same⟩

theorem Resaved.advance (h : k.Resaved store k') (rounds milliseconds : Nat) :
    (k.advance rounds milliseconds).Resaved store (k'.advance rounds milliseconds) := by
  have awaited := h.await .time (k.workspace.timerAfter milliseconds) rounds
  obtain ⟨rfl, -, -⟩ := h
  exact awaited.2

/-! ## Kernels in use -/

/-- A kernel in which all that waits goes on alike is alike to itself. -/
theorem Steady.self (h : k.Steady) : k.Resaved k.workspace.store k :=
  ⟨rfl, .refl _, h⟩

theorem Steady.move (h : k.Steady) (move : k.Move k') : k'.Steady := by
  cases move with
  | @start names started _ ok =>
    -- Compared with itself, a kernel tells what any of its operations leaves waiting.
    rcases h.self.start names with ⟨e, failed, -⟩ | ⟨_, last, _, done, -, same⟩
    · rw [failed] at ok
      cases ok
    · rw [done] at ok
      cases ok
      exact same.steady
  | stop target => exact (h.self.stop target).2.steady
  | provideInput line => exact (h.self.provideInput line).steady
  | drain => exact h.self.drain.2.steady
  | restock store => exact ⟨h.jobs, h.lines⟩
  | submit text => exact (h.self.submit text).2.steady
  | spawn text => exact (h.self.spawn text).2.steady
  | takeLine id => exact (h.self.takeLine id).2.steady
  | dropLine id => exact (h.self.dropLine id).steady
  | cancelLine id => exact (h.self.cancelLine id).steady
  | pollLine id => exact (h.self.pollLine id).steady
  | receive => exact h.self.receive.steady
  | pollJob generation => exact (h.self.pollJob generation).steady
  | beginRound => exact h.self.beginRound.steady
  | passTo time => exact (h.self.passTo time).steady
  | reorder same => exact h.same same

/-- Nothing waits in a kernel in use that would not go on alike. -/
theorem Reachable.steady (reach : k.Reachable) : k.Steady := by
  induction reach with
  | fresh new => exact ⟨by simp [new.jobs], by simp [new.lines]⟩
  | move _ move ih => exact ih.move move
  | await _ goal limit rounds ih => exact (ih.self.await goal limit rounds).2.steady
  | run _ effort text ih => exact (ih.self.run effort text).2.steady
  | cancel _ rounds id ih => exact (ih.self.cancel rounds id).steady
  | awaitLines _ effort ids ih => exact (ih.self.awaitLines effort ids).2.steady
  | waitIdle _ effort ih => exact (ih.self.waitIdle effort).2.steady
  | advance _ rounds milliseconds ih => exact (ih.self.advance rounds milliseconds).steady

/-! ## Conversations -/

/-- What a host can ask of a kernel. -/
inductive HostCall where
  | drain
  | provideInput (line : String)
  | stop (target : StopTarget)
  | start (names : List String)
  | scriptNames
  | submit (text : String)
  | spawn (text : String)
  | takeLine (id : Nat)
  | dropLine (id : Nat)
  | cancelLine (id : Nat)
  | await (goal : Goal) (limit rounds : Nat)
  | run (effort : Effort) (text : String)
  | cancel (rounds id : Nat)
  | awaitLines (effort : Effort) (ids : List Nat)
  | waitIdle (effort : Effort)
  | advance (rounds milliseconds : Nat)

/-- What the host gets to know. -/
inductive HostReply where
  | nothing
  | messages (drained : List Message)
  | stopped (names : List String)
  | started (result : Except StartError Workspace.Started)
  | scripts (names : Except StoreError (List String))
  | number (id : Nat)
  | outcomes (evaluations : List (Option Evaluation))
  | awaited (ending : Awaited)
  | idle (inTime : Bool)

/-- The answer of a kernel to its host. -/
def reply (k : Kernel) : HostCall → HostReply × Kernel
  | .drain => k.drain.map .messages id
  | .provideInput line => (.nothing, k.provideInput line)
  | .stop target => (k.stop target).map .stopped id
  | .start names =>
    match k.start names with
    | .ok (started, k') => (.started (.ok started), k')
    | .error e => (.started (.error e), k)
  | .scriptNames => (.scripts k.scriptNames, k)
  | .submit text => (k.submit text).map .number id
  | .spawn text => (k.spawn text).map .number id
  | .takeLine line => (k.takeLine line).map (fun outcome => .outcomes [outcome]) id
  | .dropLine line => (.nothing, k.dropLine line)
  | .cancelLine line => (.nothing, k.cancelLine line)
  | .await goal limit rounds => (k.await goal limit rounds).map .awaited id
  | .run effort text => (k.run effort text).map (fun outcome => .outcomes [outcome]) id
  | .cancel rounds line => (.nothing, k.cancel rounds line)
  | .awaitLines effort lines => (k.awaitLines effort lines).map .outcomes id
  | .waitIdle effort => (k.waitIdle effort).map .idle id
  | .advance rounds milliseconds => (.nothing, k.advance rounds milliseconds)

/-- The answers to one call after the other. -/
def replies : List HostCall → Kernel → List HostReply × Kernel
  | [], k => ([], k)
  | call :: rest, k =>
    let first := k.reply call
    let others := replies rest first.2
    (first.1 :: others.1, others.2)

theorem Alike.map {α β : Type} {result result' : α × Kernel} (alike : Alike store result result')
    (f : α → β) : Alike store (result.map f id) (result'.map f id) :=
  ⟨congrArg f alike.1, alike.2⟩

/-- Two kernels that are alike give the same answer and are still alike. -/
theorem Resaved.reply (h : k.Resaved store k') (call : HostCall) :
    Alike store (k.reply call) (k'.reply call) := by
  cases call with
  | drain => exact h.drain.map _
  | provideInput line => exact ⟨rfl, h.provideInput line⟩
  | stop target => exact (h.stop target).map _
  | start names =>
    simp only [Kernel.reply]
    rcases h.start names with ⟨e, here, there⟩ | ⟨started, last, last', here, there, same⟩
    · rw [here, there]
      exact ⟨rfl, h⟩
    · rw [here, there]
      exact ⟨rfl, same⟩
  | scriptNames =>
    -- The one answer that is read off the store.
    have listing : k'.scriptNames = k.scriptNames := by
      rw [h.eq]
      exact h.scripts.names_eq.symm
    exact ⟨congrArg HostReply.scripts listing, h⟩
  | submit text => exact (h.submit text).map _
  | spawn text => exact (h.spawn text).map _
  | takeLine id => exact (h.takeLine id).map _
  | dropLine id => exact ⟨rfl, h.dropLine id⟩
  | cancelLine id => exact ⟨rfl, h.cancelLine id⟩
  | await goal limit rounds => exact (h.await goal limit rounds).map _
  | run effort text => exact (h.run effort text).map _
  | cancel rounds id => exact ⟨rfl, h.cancel rounds id⟩
  | awaitLines effort ids => exact (h.awaitLines effort ids).map _
  | waitIdle effort => exact (h.waitIdle effort).map _
  | advance rounds milliseconds => exact ⟨rfl, h.advance rounds milliseconds⟩

/-- So they do for one call after the other. -/
theorem Resaved.replies (h : k.Resaved store k') (calls : List HostCall) :
    Alike store (Kernel.replies calls k) (Kernel.replies calls k') := by
  induction calls generalizing k k' with
  | nil => exact ⟨rfl, h⟩
  | cons call rest ih =>
    have first := h.reply call
    have others := ih first.2
    refine ⟨?_, others.2⟩
    show _ :: _ = _ :: _
    rw [first.1, others.1]

/-- Line endings do not matter. A text without carriage returns has the same lines with one before
each line feed, so it makes the same instances, with the same lines to go to. No line holds a line
feed, and put together with line feeds the lines are the text, but for a line feed at its end.
Hence a kernel in use whose scripts are saved anew, with the one or the other line endings, answers
its host the same from there on, whatever it is asked, and comes to the same state. -/
theorem line_endings_do_not_matter {text : String} (free : '\r' ∉ text.toList) :
    Text.sourceLines (Text.withReturns text) = Text.sourceLines text ∧
    (∀ line ∈ Text.sourceLines text, '\n' ∉ line.toList) ∧
    String.intercalate "\n" (Text.sourceLines text) ++ Text.lastEnding text = text ∧
    (∀ name generation batch, Instance.ofText name (Text.withReturns text) generation batch =
      Instance.ofText name text generation batch) ∧
    ∀ (k : Kernel) (other : Store), k.Reachable → k.workspace.store.Resaved other → ∀ calls,
      Kernel.replies calls (k.restock other) =
        ((Kernel.replies calls k).1, (Kernel.replies calls k).2.restock other) := by
  have lines := Text.sourceLines_withReturns free
  refine ⟨lines, fun line => Text.newline_notMem_of_mem_sourceLines,
    Text.intercalate_sourceLines free, Instance.ofText_congr lines, ?_⟩
  intro k other reach scripts calls
  have alike : k.Resaved other (k.restock other) := ⟨rfl, scripts, reach.steady⟩
  obtain ⟨same, last⟩ := alike.replies calls
  exact Prod.ext same last.eq

/-- A kernel with a script whose second line is an error. -/
def mistaken : Kernel :=
  withParts .isolated (.memory ⟨[("a", "print 1\nnonsense\n")]⟩) .recording

/-- The script is started and reports its error the same, saved with carriage returns. -/
theorem mistaken_with_returns :
    let calls : List HostCall := [.start ["a"], .waitIdle ⟨1000, 10⟩, .drain]
    let other : Store := .memory ⟨[("a", Text.withReturns "print 1\nnonsense\n")]⟩
    Text.withReturns "print 1\nnonsense\n" = "print 1\r\nnonsense\r\n" ∧
    Text.sourceLines (Text.withReturns "print 1\nnonsense\n") = ["print 1", "nonsense"] ∧
    Kernel.replies calls (mistaken.restock other) =
      ((Kernel.replies calls mistaken).1, (Kernel.replies calls mistaken).2.restock other) := by
  intro calls other
  have free : '\r' ∉ "print 1\nnonsense\n".toList := by decide
  obtain ⟨lines, -, -, -, kernels⟩ := line_endings_do_not_matter free
  have fresh : mistaken.Reachable := .fresh (withParts_fresh ..)
  have resaved : mistaken.workspace.store.Resaved other :=
    .memory (.cons ⟨rfl, .withReturns free⟩ .nil)
  exact ⟨by decide, lines.trans (by decide), kernels mistaken other fresh resaved calls⟩

end Kernel

end LineScript
