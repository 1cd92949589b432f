import LineScript.Kernel.Await
import LineScript.Proofs.Kernel.Turns

/-!
# What a kernel does is what its driver does

Everything that a host can ask of a kernel, its waits included, comes down to single moves: turns
of lines and jobs, starts and stops, and what the host says and reads. Each move can be followed by
a driver, so in every kernel that moves lead to each entry of the active set has exactly one
instance, in the inbox or as a job.
-/

namespace LineScript.Kernel

/-- A single move of a kernel or of its host. -/
inductive Move (k : Kernel) : Kernel → Prop where
  | start {names : List String} {started : Workspace.Started} {k' : Kernel}
      (ok : k.start names = .ok (started, k')) : Move k k'
  | stop (target : StopTarget) : Move k (k.stop target).2
  | provideInput (line : String) : Move k (k.provideInput line)
  | drain : Move k k.drain.2
  | restock (store : Store) : Move k { k with workspace := { k.workspace with store } }
  | submit (text : String) : Move k (k.submit text).2
  | spawn (text : String) : Move k (k.spawn text).2
  | takeLine (id : Nat) : Move k (k.takeLine id).2
  | dropLine (id : Nat) : Move k (k.dropLine id)
  | cancelLine (id : Nat) : Move k (k.cancelLine id)
  | pollLine (id : Nat) : Move k (k.pollLine id)
  | receive : Move k k.receive
  | pollJob (generation : Nat) : Move k (k.pollJob generation)
  | beginRound : Move k k.beginRound
  | passTo (time : Nat) : Move k (k.passTo time)
  /-- Only the order of the next turns changes. -/
  | reorder {k' : Kernel} (same : k.Same k') : Move k k'

/-- Any number of moves. -/
abbrev Moves : Kernel → Kernel → Prop :=
  Relation.ReflTransGen Move

variable {k k' : Kernel}

theorem Driven.submit (h : k.Driven) (text : String) : (k.submit text).2.Driven := by
  refine h.congr rfl rfl fun line mem => ?_
  rcases List.mem_append.mp mem with old | new
  · exact .inl old
  · rw [List.mem_singleton.mp new]
    exact .inr trivial

theorem Driven.move (h : k.Driven) (move : k.Move k') : k'.Driven := by
  cases move with
  | @start names started _ ok =>
    unfold Kernel.start at ok
    split at ok
    · rename_i batch ws started
      cases ok
      obtain ⟨-, scripts, e, -, -, -, eq⟩ := Workspace.startBatch_ok started
      refine (h.steps fun d same => ?_).callReady
      rw [← same] at started eq
      have nobody : ∀ i, none = some i → i ∈ d.units := by simp
      have sent : ws.inbox = d.workspace.inbox ++ e.instances := by rw [eq]
      exact (Driver.Step.start nobody started sent).leads
    · cases ok
  | stop target =>
    obtain ⟨d₀, d, fresh, leads, follows⟩ := h
    refine Driven.callReady ⟨d₀, _, fresh, leads.step (.stop target), ?_, follows.units,
      follows.outcomes, follows.jobs, follows.lines⟩
    rw [follows.workspace]
  | provideInput line => exact (h.aside (.provideInput line)).callReady
  | drain => exact h.aside .drain
  | restock store => exact h.aside (.restock store)
  | submit text => exact h.submit text
  | spawn text =>
    have submitted := h.submit text
    exact Driven.callReady (submitted.same ⟨rfl, rfl, rfl⟩)
  | takeLine id =>
    unfold Kernel.takeLine
    split <;> exact h.removeLine id
  | dropLine id => exact h.dropLine id
  | cancelLine id => exact h.cancelLine id
  | pollLine id => exact h.pollLine id
  | receive => exact h.receive
  | pollJob generation => exact h.pollJob generation
  | beginRound => exact h.beginRound
  | passTo time => exact (h.aside (.pass _)).callReady
  | reorder same => exact h.same same

theorem Driven.moves (h : k.Driven) (moves : k.Moves k') : k'.Driven := by
  induction moves with
  | refl => exact h
  | tail _ move ih => exact ih.move move

/-! ## Whole turns, rounds and waits -/

/-- What can happen while a host waits: turns of lines and jobs, and time passes. -/
inductive Proceed (k : Kernel) : Kernel → Prop where
  | pollLine (id : Nat) : Proceed k (k.pollLine id)
  | receive : Proceed k k.receive
  | pollJob (generation : Nat) : Proceed k (k.pollJob generation)
  | beginRound : Proceed k k.beginRound
  | passTo (time : Nat) : Proceed k (k.passTo time)
  | reorder {k' : Kernel} (same : k.Same k') : Proceed k k'

abbrev Proceeds : Kernel → Kernel → Prop :=
  Relation.ReflTransGen Proceed

theorem Proceed.move (h : k.Proceed k') : k.Move k' := by
  cases h with
  | pollLine id => exact .pollLine id
  | receive => exact .receive
  | pollJob generation => exact .pollJob generation
  | beginRound => exact .beginRound
  | passTo time => exact .passTo time
  | reorder same => exact .reorder same

theorem callReady_proceeds (k : Kernel) : k.Proceeds k.callReady :=
  .single (.reorder k.callReady_same)

theorem seeTo_proceeds (turns : Nat) (k : Kernel) : k.Proceeds (k.seeTo turns) := by
  induction turns generalizing k with
  | zero => exact .refl
  | succ turns ih =>
    rw [seeTo]
    split
    · exact .refl
    · rename_i generation rest _
      have taken : k.Proceed { k with ready := rest } := .reorder ⟨rfl, rfl, rfl⟩
      have polled : k.Proceeds ({ k with ready := rest }.pollJob generation) :=
        .tail (.single taken) (.pollJob generation)
      refine (polled.trans (callReady_proceeds _)).trans ?_
      dsimp only
      split
      · exact ih _
      · exact .head .receive (ih _)

theorem turn_proceeds (turns : Nat) (k : Kernel) (worker : Worker) :
    k.Proceeds (k.turn turns worker) := by
  cases worker with
  | line id => exact .single (.pollLine id)
  | driver => exact .head .receive (seeTo_proceeds turns _)

theorem work_proceeds (turns : Nat) (k : Kernel) : k.Proceeds (k.work turns) := by
  induction turns generalizing k with
  | zero => exact .refl
  | succ turns ih =>
    rw [work]
    split
    · exact .refl
    · rename_i worker _ _
      have erased : Kernel.Proceed (k.turn (turns + 1) worker)
          { k.turn (turns + 1) worker with
            queue := (k.turn (turns + 1) worker).queue.erase worker } :=
        .reorder ⟨rfl, rfl, rfl⟩
      exact ((turn_proceeds (turns + 1) k worker).tail erased).trans
        ((callReady_proceeds _).trans (ih _))

theorem poll_proceeds (goal : Goal) (k : Kernel) : k.Proceeds (goal.poll k) := by
  cases goal with
  | line id => exact .head (.pollLine id) (callReady_proceeds _)
  | _ => exact .refl

theorem await_proceeds (goal : Goal) (limit : Nat) (rounds : Nat) (k : Kernel) :
    k.Proceeds (await goal limit rounds k).2 := by
  induction rounds generalizing k with
  | zero => exact .refl
  | succ rounds ih =>
    rw [await]
    dsimp only
    have polled := poll_proceeds goal k
    split
    · exact polled
    · split
      · exact polled
      · have worked := polled.trans (work_proceeds rounds (goal.poll k))
        split
        · exact (worked.tail .beginRound).trans (ih _)
        · exact (worked.tail (.passTo _)).trans (ih _)

theorem await_moves (goal : Goal) (limit : Nat) (rounds : Nat) (k : Kernel) :
    k.Moves (await goal limit rounds k).2 :=
  Relation.ReflTransGen.mono (fun _ _ => Proceed.move) _ _ (await_proceeds goal limit rounds k)

theorem run_moves (effort : Effort) (k : Kernel) (text : String) :
    k.Moves (k.run effort text).2 := by
  have submitted : k.Moves (k.submit text).2 := .single (.submit text)
  have awaited := submitted.trans (await_moves (.line (k.submit text).1)
    (k.workspace.now + effort.patience) effort.rounds (k.submit text).2)
  unfold run
  dsimp only
  split
  · rename_i last eq
    rw [eq] at awaited
    exact awaited.tail (.takeLine _)
  · rename_i last _ eq
    rw [eq] at awaited
    exact awaited.tail (.dropLine _)

theorem cancel_moves (rounds : Nat) (k : Kernel) (id : Nat) : k.Moves (k.cancel rounds id) :=
  .head (.cancelLine id) (await_moves _ _ _ _)

theorem awaitLine_moves (effort : Effort) (k : Kernel) (id : Nat) :
    k.Moves (k.awaitLine effort id).2 := by
  have awaited := await_moves (.outcome id) (k.workspace.now + effort.patience) effort.rounds k
  unfold awaitLine
  split
  · rename_i last eq
    rw [eq] at awaited
    exact awaited.tail (.takeLine id)
  · rename_i last _ eq
    rw [eq] at awaited
    exact awaited.trans (cancel_moves _ _ _)

theorem awaitLines_moves (effort : Effort) (ids : List Nat) (k : Kernel) :
    k.Moves (awaitLines effort ids k).2 := by
  induction ids generalizing k with
  | nil => exact .refl
  | cons id rest ih => exact (awaitLine_moves effort k id).trans (ih _)

theorem waitIdle_moves (effort : Effort) (k : Kernel) : k.Moves (k.waitIdle effort).2 := by
  have awaited := await_moves .idle (k.workspace.now + effort.patience) effort.rounds k
  unfold waitIdle
  split
  · rename_i last eq
    rwa [eq] at awaited
  · rename_i last _ eq
    rwa [eq] at awaited

theorem advance_moves (rounds : Nat) (k : Kernel) (milliseconds : Nat) :
    k.Moves (k.advance rounds milliseconds) :=
  await_moves _ _ _ _

/-! ## Kernels in use -/

/-- A kernel on which nothing has happened yet. -/
structure Fresh (k : Kernel) : Prop where
  scheduler : k.workspace.scheduler = {}
  inbox : k.workspace.inbox = []
  jobs : k.jobs = []
  lines : k.lines = []

theorem withParts_fresh (config : Config) (store : Store) (device : Device) (registry : Registry) :
    (withParts config store device registry).Fresh :=
  ⟨rfl, rfl, rfl, rfl⟩

/-- A kernel in use: what its host does has led to it. -/
inductive Reachable : Kernel → Prop where
  | fresh {k : Kernel} (new : k.Fresh) : Reachable k
  | move {k k' : Kernel} (reach : Reachable k) (move : k.Move k') : Reachable k'
  | await {k : Kernel} (reach : Reachable k) (goal : Goal) (limit rounds : Nat) :
      Reachable (await goal limit rounds k).2
  | run {k : Kernel} (reach : Reachable k) (effort : Effort) (text : String) :
      Reachable (k.run effort text).2
  | cancel {k : Kernel} (reach : Reachable k) (rounds id : Nat) : Reachable (k.cancel rounds id)
  | awaitLines {k : Kernel} (reach : Reachable k) (effort : Effort) (ids : List Nat) :
      Reachable (awaitLines effort ids k).2
  | waitIdle {k : Kernel} (reach : Reachable k) (effort : Effort) :
      Reachable (k.waitIdle effort).2
  | advance {k : Kernel} (reach : Reachable k) (rounds milliseconds : Nat) :
      Reachable (k.advance rounds milliseconds)

theorem Fresh.driven (fresh : k.Fresh) : k.Driven := by
  let d : Driver := { workspace := k.workspace }
  refine ⟨d, d, ⟨fresh.scheduler, fresh.inbox, rfl, rfl, rfl⟩, .refl d, rfl, ?_, rfl, ?_, ?_⟩
  · simp [d, fresh.jobs]
  · simp [fresh.jobs]
  · simp [fresh.lines]

/-- A driver can have come to wherever a kernel in use is. -/
theorem Reachable.driven (reach : k.Reachable) : k.Driven := by
  induction reach with
  | fresh new => exact new.driven
  | move _ move ih => exact ih.move move
  | await _ goal limit rounds ih => exact ih.moves (await_moves goal limit rounds _)
  | run _ effort text ih => exact ih.moves (run_moves effort _ text)
  | cancel _ rounds id ih => exact ih.moves (cancel_moves rounds _ id)
  | awaitLines _ effort ids ih => exact ih.moves (awaitLines_moves effort ids _)
  | waitIdle _ effort ih => exact ih.moves (waitIdle_moves effort _)
  | advance _ rounds milliseconds ih => exact ih.moves (advance_moves rounds _ milliseconds)

/-- The inbox and the jobs of a kernel are all that its driver has in its hands. -/
theorem Follows.held_perm {d : Driver} (follows : k.Follows d) :
    d.held.Perm (k.workspace.inbox ++ k.jobs.map (·.inst)) := by
  rw [Driver.held, follows.outcomes, follows.workspace, List.map_nil, List.append_nil]
  exact follows.units.append_left _

/-- In every kernel that is in use, each entry of the active set has exactly one instance, which
waits to be received or is a job. -/
theorem Reachable.one_instance_each (reach : k.Reachable) {e : Active}
    (active : e ∈ k.workspace.scheduler.active) :
    (k.workspace.inbox ++ k.jobs.map (·.inst)).countP
      (fun i => i.name == e.name && i.generation == e.generation) = 1 := by
  obtain ⟨d₀, d, fresh, ⟨events, run⟩, follows⟩ := reach.driven
  rw [← follows.workspace] at active
  rw [← follows.held_perm.countP_eq]
  exact (run.custody fresh.custody).held_once active

/-- However starts, ticks and stops follow each other, each entry of the active set has exactly one
instance in the driver's hands. An instance that the driver lets go of is not current and nobody
else has it; if it was given up, or was stopped before its end was handled, letting it go changes
nothing. A kernel in use is always where such a driver can be, so there too each entry has exactly
one instance, in the inbox or among the jobs. -/
theorem each_entry_is_held_once {d₀ d : Driver} {events : List Driver.Event} (fresh : d₀.Fresh)
    (run : d₀.Runs events d) :
    (∀ e ∈ d.workspace.scheduler.active,
      d.held.countP (fun i => i.name == e.name && i.generation == e.generation) = 1) ∧
    (∀ ticked d', d.Step (.handle ticked) d' →
      (ticked.outcome = .cancelled →
        d.workspace.isCurrent ticked.inst = false ∧ d'.workspace = d.workspace) ∧
      (∀ reason, ticked.outcome = .ended reason →
        d.workspace.isCurrent ticked.inst = false → d'.workspace = d.workspace) ∧
      (ticked.outcome ≠ .running →
        d'.workspace.isCurrent ticked.inst = false ∧
          ∀ i ∈ d'.held, i.generation ≠ ticked.inst.generation)) ∧
    ∀ k : Kernel, k.Reachable →
      k.Driven ∧
      ∀ e ∈ k.workspace.scheduler.active,
        (k.workspace.inbox ++ k.jobs.map (·.inst)).countP
          (fun i => i.name == e.name && i.generation == e.generation) = 1 := by
  have custody := run.custody fresh.custody
  refine ⟨fun e active => custody.held_once active, ?_, ?_⟩
  · intro ticked d' step
    cases step with
    | handle waits =>
      refine ⟨?_, ?_, custody.handled_released waits⟩
      · intro cancelled
        have gone := custody.cancelled ticked (waits.mem_iff.mpr List.mem_cons_self) cancelled
        refine ⟨gone.not_current, ?_⟩
        simp only [Driver.handled, cancelled]
      · intro reason ended stale
        simp only [Driver.handled, ended]
        exact Workspace.finish_of_stale stale
  · exact fun k reach => ⟨reach.driven, fun e active => reach.one_instance_each active⟩

/-- A kernel on which `a` was started. -/
def underway : Kernel :=
  { workspace :=
      { config := .isolated
        registry := {}
        device := .recording
        store := .memory ⟨[("a", "print 1")]⟩
        scheduler :=
          { active := [⟨"a", 1, 1⟩], batches := [⟨1, 1⟩], lastBatch := 1, nextGeneration := 2 }
        bus := ⟨#[.scripts ["a"]]⟩
        inbox := [.ofText "a" "print 1" 1 1] }
    queue := [.driver] }

theorem underway_reachable : underway.Reachable := by
  let fresh := withParts .isolated (.memory ⟨[("a", "print 1")]⟩) .recording {}
  have started : fresh.start ["a"] = .ok (⟨1, ["a"]⟩, underway) := rfl
  exact .move (.fresh (withParts_fresh ..)) (.start started)

/-- A script that was started twice: its second run has one holder, and its first unit is dropped.
In a kernel the script that has just started has one as well. -/
theorem givenUp_is_held_once :
    (∃ events, Driver.idle.Runs events Driver.givenUp) ∧
      Driver.givenUp.held.countP (fun i => i.name == "a" && i.generation == 2) = 1 ∧
      Driver.givenUp.workspace.isCurrent (.ofText "a" "print 1" 1 1) = false ∧
      (underway.workspace.inbox ++ underway.jobs.map (·.inst)).countP
        (fun i => i.name == "a" && i.generation == 1) = 1 := by
  have run := Driver.idle_runs_overtaken.snoc Driver.overtaken_step_givenUp
  obtain ⟨once, handles, kernels⟩ := each_entry_is_held_once Driver.idle_fresh run
  have dropped := (handles _ _ (.handle (.refl _))).1 rfl
  have job := (kernels underway underway_reachable).2 ⟨"a", 1, 1⟩ List.mem_cons_self
  exact ⟨⟨_, run⟩, once ⟨"a", 2, 2⟩ List.mem_cons_self, dropped.1, job⟩

end LineScript.Kernel
