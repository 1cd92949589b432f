import LineScript.Proofs.Kernel.Effect
import LineScript.Proofs.Line.Seclusion

/-!
# Scripts in company

Jobs that take turns in any order while time passes, rounds begin and scripts are stopped. A
`Company` is a kernel with the sagas of the ticks that have begun, so that it can be told whether a
turn has to do with others; the kernel is not touched by that.

* `Job.saga?` and `Job.ticked?` are what is told of a turn and what comes of it.
* `Job.Parallel` relates the turns of a job in two workspaces beside each other.
* `Company.next` is what happens, `Company.IsPrivate` that it concerns nobody else, and
  `Company.sequence` what an instance has to show for its ticks.
-/

namespace LineScript

/-- The target means the script of this name. -/
def StopTarget.hits : StopTarget → String → Prop
  | .all, _ => True
  | .named name, other => other = name

namespace Scheduler

/-- The end of an instance, or of nobody. -/
def dismiss (s : Scheduler) : Option Instance → Scheduler × List Message
  | none => (s, [])
  | some i => s.finish i

variable {s : Scheduler} {e : Active}

/-- With the end of an instance its entry leaves, and no other. -/
theorem mem_dismiss (h : s.Registered) (ended : Option Instance) :
    e ∈ (s.dismiss ended).1.active ↔
      e ∈ s.active ∧ ∀ i, ended = some i → e.name = i.name → e.generation ≠ i.generation := by
  cases ended with
  | none => simp [dismiss]
  | some i =>
    have running : s.isCurrent i.name i.generation = true ↔
        ∃ e ∈ s.active, e.name = i.name ∧ e.generation = i.generation := isCurrent_iff h.names_nodup
    unfold dismiss
    rcases finish_cases s i with ⟨current, eq⟩ | ⟨stale, eq⟩
    · obtain ⟨mine, mem, name, generation⟩ := running.mp current
      rw [eq, mem_without]
      constructor
      · rintro ⟨active, others⟩
        refine ⟨active, ?_⟩
        rintro _ ⟨⟩ same
        exact absurd same.symm (others i.entry (by simp))
      · rintro ⟨active, other⟩
        refine ⟨active, fun g gone same => ?_⟩
        rw [List.mem_singleton.mp gone] at same
        have self : e = mine := eq_of_name_eq h.names_nodup active mem (same.symm.trans name.symm)
        exact other i rfl same.symm (self ▸ generation)
    · rw [eq]
      refine ⟨fun active => ⟨active, ?_⟩, fun found => found.1⟩
      rintro _ ⟨⟩ name generation
      rw [running.mpr ⟨e, active, name, generation⟩] at stale
      cases stale

theorem Registered.dismiss (h : s.Registered) (ended : Option Instance) :
    (s.dismiss ended).1.Registered := by
  cases ended with
  | none => exact h
  | some i =>
    rcases finish_cases s i with ⟨-, eq⟩ | ⟨-, eq⟩
    · rw [Scheduler.dismiss, eq]
      exact h.without
    · rw [Scheduler.dismiss, eq]
      exact h

/-- A stop takes out what it is told to. -/
theorem mem_without_targeted (s : Scheduler) (target : StopTarget) :
    e ∈ (s.without (s.targeted target)).active ↔ e ∈ s.active ∧ ¬ target.hits e.name := by
  rw [mem_without]
  cases target with
  | all =>
    refine ⟨fun found => absurd rfl (found.2 e found.1), fun found => absurd trivial found.2⟩
  | named name =>
    simp only [targeted, List.mem_filter, beq_iff_eq, StopTarget.hits]
    refine ⟨fun found => ⟨found.1, fun same => found.2 e ⟨found.1, same⟩ rfl⟩, ?_⟩
    rintro ⟨active, other⟩
    exact ⟨active, fun g hit same => other (same.symm.trans hit.2)⟩

end Scheduler

namespace Workspace

/-- The end of a turn: something is said, and somebody may end. -/
def concluded (ws : Workspace) (said : List Message) (ended : Option Instance) : Workspace :=
  { (ws.publish said).publish (ws.scheduler.dismiss ended).2 with
    scheduler := (ws.scheduler.dismiss ended).1 }

theorem publish_eq_concluded (ws : Workspace) (said : List Message) :
    ws.publish said = ws.concluded said none := by
  rw [concluded, Scheduler.dismiss, publish_nil]
  rfl

theorem eq_concluded (ws : Workspace) : ws = ws.concluded [] none := by
  rw [← publish_eq_concluded, publish_nil]

theorem finish_publish (ws : Workspace) (said : List Message) (i : Instance) :
    (ws.publish said).finish i = ws.concluded said (some i) :=
  finish_eq _ i

/-- The end of a turn leaves what a line looks at. -/
theorem shares_concluded (ws : Workspace) (entropy : Entropy) (said : List Message)
    (ended : Option Instance) : Shares ws ((ws.stir entropy).concluded said ended) :=
  ⟨rfl, rfl, rfl, rfl, rfl, rfl, rfl⟩

/-- So does a stop. -/
theorem shares_stop (ws : Workspace) (target : StopTarget) : Shares ws (ws.stop target).2 := by
  rw [stop_eq]
  exact ⟨rfl, rfl, rfl, rfl, rfl, rfl, rfl⟩

end Workspace

namespace Job

open Workspace

variable {job : Job} {rest : Workspace → Saga Ticked} {ws ws' : Workspace}

/-! ## Turns -/

/-- The run of a turn; none if the turn is not within a tick. -/
def run? (job : Job) (ws : Workspace) : Option (Run Ticked) :=
  if job.isStale ws then none
  else
    match job.phase with
    | .due => some (job.inst.tick ws)
    | .waiting s => if s.wait.isOver ws then some (s.next ws) else none
    | _ => none

/-- The saga of a turn, if `rest` is that of the tick that has begun. -/
def saga? (job : Job) (rest : Workspace → Saga Ticked) (ws : Workspace) : Option (Saga Ticked) :=
  if job.isStale ws then none
  else
    match job.phase with
    | .due => some (Saga.tick job.inst ws)
    | .waiting s => if s.wait.isOver ws then some (rest ws) else none
    | _ => none

/-- What is left of the saga after a turn. -/
def restAfter (job : Job) (rest : Workspace → Saga Ticked) (ws : Workspace) :
    Workspace → Saga Ticked :=
  ((job.saga? rest ws).bind Saga.rest?).getD rest

/-- What has come of a tick, if it is over, and what was said with its end. -/
def outcome? (ws : Workspace) : Run Ticked → Option (Ticked × List Message)
  | .done ticked last => some (ticked, Saga.said ws last)
  | _ => none

/-- What has come of a tick that ends with the turn. -/
def ticked? (job : Job) (ws : Workspace) : Option (Ticked × List Message) :=
  (job.run? ws).bind (outcome? ws)

/-- What was said with the end of a tick, if there was one. -/
def block (ticked : Option (Ticked × List Message)) : List Message :=
  (ticked.map Prod.snd).getD []

/-- The instance that has ended with a tick. -/
def ended? : Option (Ticked × List Message) → Option Instance
  | some (⟨i, .ended _⟩, _) => some i
  | _ => none

/-- What a private turn leaves of `ws` if it comes to the same there as in `here`. -/
def conclude (job : Job) (here ws : Workspace) : Workspace :=
  (ws.stir (job.poll here).2.entropy).concluded (block (job.ticked? here))
    (ended? (job.ticked? here))

theorem conclude_stir (job : Job) (here ws : Workspace) (entropy : Entropy) :
    job.conclude here (ws.stir entropy) = job.conclude here ws :=
  rfl

theorem not_isStale_of_ticked? {ticked : Ticked × List Message} (h : job.ticked? ws = some ticked) :
    job.isStale ws = false := by
  cases stale : job.isStale ws with
  | false => rfl
  | true => simp [ticked?, run?, stale] at h

/-- The saga is that of the tick that the job is in. It waits for a time, and its rest is the same
in workspaces beside each other. -/
def Tells (job : Job) (rest : Workspace → Saga Ticked) : Prop :=
  ∀ s, job.phase = .waiting s → (∃ deadline, s.wait = .time deadline) ∧
    (∀ ws, s.next ws = (rest ws).run) ∧
    ∀ later later', Beside job.inst later later' →
      Saga.Mirrors job.inst (Saga.Closes job.inst) later later' (rest later) (rest later')

theorem tells_of_wait?_eq_none (idle : job.phase.wait? = none) (rest : Workspace → Saga Ticked) :
    job.Tells rest := by
  intro s waiting
  rw [waiting] at idle
  cases idle

theorem poll_of_run? {run : Run Ticked} (h : job.run? ws = some run) :
    job.poll ws = job.settle ws run := by
  unfold run? at h
  split at h
  · cases h
  · rename_i running
    have current : (job.isStale ws && !job.phase.isFresh) = false := by simp [running]
    unfold poll proceed
    rw [current]
    cases phase : job.phase with
    | due =>
      rw [phase] at h
      cases h
      rfl
    | waiting s =>
      simp only [phase] at h
      split at h
      · rename_i elapsed
        cases h
        simp [elapsed]
      · cases h
    | _ => rw [phase] at h; cases h

/-- What becomes of a job with a turn that is not within a tick. -/
def idle? (job : Job) (stale : Bool) : Option Job :=
  match job.phase with
  | .fresh => some { job with phase := .resting }
  | _ => if stale then none else some job

theorem poll_of_run?_eq_none (tells : job.Tells rest) (h : job.run? ws = none) :
    job.poll ws = (job.idle? (job.isStale ws), ws) := by
  unfold run? at h
  unfold poll proceed idle?
  cases phase : job.phase with
  | waiting s =>
    obtain ⟨⟨deadline, wait⟩, -, -⟩ := tells s phase
    cases stale : job.isStale ws with
    | true => simp [Phase.isFresh, abandon, phase, wait, Wait.abandon]
    | false =>
      simp only [stale, phase] at h
      have waits : s.wait.isOver ws = false := by simpa using h
      rw [wait] at waits
      simp [wait, waits, Wait.remain]
  | due =>
    cases stale : job.isStale ws with
    | true => simp [Phase.isFresh, abandon, phase]
    | false => simp [stale, phase] at h
  | fresh => simp [Phase.isFresh]
  | resting => cases stale : job.isStale ws <;> simp [Phase.isFresh, abandon, phase]
  | lost => cases stale : job.isStale ws <;> simp [Phase.isFresh, abandon, phase]

theorem run?_eq_map_run (tells : job.Tells rest) (ws : Workspace) :
    job.run? ws = (job.saga? rest ws).map Saga.run := by
  unfold run? saga?
  split
  · rfl
  · cases phase : job.phase with
    | due => simp [Saga.run_tick]
    | waiting s =>
      obtain ⟨-, next, -⟩ := tells s phase
      dsimp only
      split
      · simp [next]
      · rfl
    | _ => rfl

/-! ## Turns side by side -/

/-- What a turn of a job comes to in two workspaces: the same is left of the job, the same is done
to both workspaces, and the same tick ends. `rest` is what is left of the saga. -/
structure Parallel (job : Job) (rest : Workspace → Saga Ticked) (ws ws' : Workspace)
    (polled polled' : Option Job × Workspace) (ticked : Option (Ticked × List Message)) :
    Prop where
  left : polled'.1 = polled.1
  here : polled.2 = (ws.stir polled.2.entropy).concluded (block ticked) (ended? ticked)
  there : polled'.2 = (ws'.stir polled.2.entropy).concluded (block ticked) (ended? ticked)
  ended_entry : ∀ i, ended? ticked = some i → i.entry = job.inst.entry
  left_entry : ∀ job', polled.1 = some job' → job'.inst.entry = job.inst.entry
  tells : ∀ job', polled.1 = some job' → job'.Tells rest

/-- Both workspaces still share what they shared. -/
theorem Parallel.shares {polled polled' : Option Job × Workspace}
    {ticked : Option (Ticked × List Message)} (h : job.Parallel rest ws ws' polled polled' ticked)
    (shares : Shares ws ws') : Shares polled.2 polled'.2 := by
  rw [h.there, h.here]
  exact { shares with }

variable {run run' : Run Ticked} {next? : Option (Workspace → Saga Ticked)}

theorem settle_parallel (beside : Beside job.inst ws ws')
    (fate : Saga.Fate job.inst (Saga.Closes job.inst) ws ws' run run' next?)
    (rest : Workspace → Saga Ticked) :
    job.Parallel (next?.getD rest) ws ws' (job.settle ws run) (job.settle ws' run')
      (outcome? ws run) := by
  cases fate with
  | endless =>
    refine ⟨rfl, eq_concluded ws, ?_, by simp [outcome?, ended?], ?_, ?_⟩
    · exact beside.draws_refl.there.trans (eq_concluded _)
    · rintro job' ⟨⟩
      rfl
    · rintro job' ⟨⟩
      exact tells_of_wait?_eq_none rfl _
  | @await deadline last last' next draws more =>
    refine ⟨rfl, ?_, ?_, by simp [outcome?, ended?], ?_, ?_⟩
    · exact draws.here.trans (eq_concluded _)
    · exact draws.there.trans (eq_concluded _)
    · rintro job' ⟨⟩
      rfl
    · rintro job' ⟨⟩ s ⟨⟩
      exact ⟨⟨deadline, rfl⟩, fun _ => rfl, more⟩
  | @done ticked last last' closes =>
    -- What is said is published either way, and only an instance that has ended leaves.
    have here : last = (ws.stir last.entropy).concluded (Saga.said ws last) none :=
      closes.here.trans (publish_eq_concluded _ _)
    have there : last' = (ws'.stir last.entropy).concluded (Saga.said ws last) none :=
      closes.there.trans (publish_eq_concluded _ _)
    obtain ⟨i, outcome⟩ := ticked
    cases outcome with
    | running =>
      refine ⟨rfl, here, there, by simp [outcome?, ended?], ?_, ?_⟩
      · rintro job' ⟨⟩
        exact closes.entry
      · rintro job' ⟨⟩
        exact tells_of_wait?_eq_none rfl _
    | ended reason =>
      refine ⟨rfl, ?_, ?_, ?_, by simp [settle], by simp [settle]⟩
      · show last.finish i =
          (ws.stir (last.finish i).entropy).concluded (Saga.said ws last) (some i)
        rw [last.finish_entropy, ← finish_publish, ← closes.here]
      · show last'.finish i =
          (ws'.stir (last.finish i).entropy).concluded (Saga.said ws last) (some i)
        rw [last.finish_entropy, ← finish_publish, ← closes.there]
      · rintro _ ⟨⟩
        exact closes.entry
    | cancelled =>
      exact ⟨rfl, here, there, by simp [outcome?, ended?], by simp [settle], by simp [settle]⟩

theorem outcome?_eq (fate : Saga.Fate job.inst (Saga.Closes job.inst) ws ws' run run' next?) :
    outcome? ws' run' = outcome? ws run := by
  cases fate with
  | @done ticked last last' closes =>
    have said : Saga.said ws' last' = Saga.said ws last := by
      rw [closes.there]
      simp [Saga.said, Workspace.publish, stir]
    simp only [outcome?, said]
  | await _ _ => rfl
  | endless => rfl

theorem idle?_inst {stale : Bool} {job' : Job} (h : job.idle? stale = some job') :
    job'.inst = job.inst ∧ (job' = job ∨ job'.phase.wait? = none) := by
  unfold idle? at h
  split at h
  · cases h
    exact ⟨rfl, .inr rfl⟩
  · split at h
    · cases h
    · cases h
      exact ⟨rfl, .inl rfl⟩

/-- The sagas of a turn in two workspaces are there or not, and if they are, they mirror each
other. -/
theorem saga?_mirrors (tells : job.Tells rest) (beside : Beside job.inst ws ws') :
    (job.saga? rest ws = none ∧ job.saga? rest ws' = none) ∨
      ∃ saga saga', job.saga? rest ws = some saga ∧ job.saga? rest ws' = some saga' ∧
        Saga.Mirrors job.inst (Saga.Closes job.inst) ws ws' saga saga' := by
  have stale : job.isStale ws' = job.isStale ws := by
    rw [isStale, isStale, beside.current]
  unfold saga?
  rw [stale]
  cases job.isStale ws with
  | true => exact .inl ⟨rfl, rfl⟩
  | false =>
    cases phase : job.phase with
    | due => exact .inr ⟨_, _, rfl, rfl, Saga.tick_mirrors job.inst beside⟩
    | waiting s =>
      obtain ⟨⟨deadline, wait⟩, -, mirrors⟩ := tells s phase
      have elapsed : s.wait.isOver ws' = s.wait.isOver ws := by
        rw [wait, Wait.isOver, Wait.isOver, beside.now]
      simp only [elapsed]
      cases s.wait.isOver ws with
      | true => exact .inr ⟨_, _, rfl, rfl, mirrors ws ws' beside⟩
      | false => exact .inl ⟨rfl, rfl⟩
    | _ => exact .inl ⟨rfl, rfl⟩

/-- In workspaces beside each other a private turn of a job comes to the same. -/
theorem poll_parallel (tells : job.Tells rest) (beside : Beside job.inst ws ws')
    (priv : ∀ saga, job.saga? rest ws = some saga → saga.IsPrivate) :
    job.restAfter rest ws' = job.restAfter rest ws ∧ job.ticked? ws' = job.ticked? ws ∧
      job.Parallel (job.restAfter rest ws) ws ws' (job.poll ws) (job.poll ws')
        (job.ticked? ws) := by
  rcases saga?_mirrors tells beside with ⟨none, none'⟩ | ⟨saga, saga', some, some', mirrors⟩
  · have idle : job.run? ws = .none := by rw [run?_eq_map_run tells, none]; rfl
    have idle' : job.run? ws' = .none := by rw [run?_eq_map_run tells, none']; rfl
    have stale : job.isStale ws' = job.isStale ws := by
      rw [isStale, isStale, beside.current]
    have unchanged : job.restAfter rest ws = rest := by rw [restAfter, none]; rfl
    have unticked : job.ticked? ws = .none := by rw [ticked?, idle]; rfl
    refine ⟨by rw [restAfter, restAfter, none, none'],
      by rw [ticked?, ticked?, idle, idle']; rfl, ?_⟩
    rw [poll_of_run?_eq_none tells idle, poll_of_run?_eq_none tells idle', stale, unchanged,
      unticked]
    refine ⟨rfl, eq_concluded ws, ?_, by simp [ended?], ?_, ?_⟩
    · exact beside.draws_refl.there.trans (eq_concluded _)
    · intro job' left
      rw [(idle?_inst left).1]
    · intro job' left
      rcases (idle?_inst left).2 with rfl | still
      · exact tells
      · exact tells_of_wait?_eq_none still rest
  · obtain ⟨rests, fate⟩ := mirrors.fate (priv saga some)
    have runs : job.run? ws = .some saga.run := by rw [run?_eq_map_run tells, some]; rfl
    have runs' : job.run? ws' = .some saga'.run := by rw [run?_eq_map_run tells, some']; rfl
    have ticked : job.ticked? ws = outcome? ws saga.run := by rw [ticked?, runs]; rfl
    have ticked' : job.ticked? ws' = outcome? ws' saga'.run := by rw [ticked?, runs']; rfl
    have after : job.restAfter rest ws = saga.rest?.getD rest := by rw [restAfter, some]; rfl
    have after' : job.restAfter rest ws' = saga.rest?.getD rest := by
      rw [restAfter, some', ← rests]
      rfl
    refine ⟨after'.trans after.symm, ?_, ?_⟩
    · rw [ticked, ticked']
      exact outcome?_eq fate
    · rw [poll_of_run? runs, poll_of_run? runs', after, ticked]
      exact settle_parallel beside fate rest

end Job

/-! ## Companies -/

/-- A kernel with the sagas of the ticks that its jobs are in. -/
structure Company where
  kernel : Kernel
  /-- What is left of the tick of a job, by generation. -/
  rest : Nat → Workspace → Saga Ticked

namespace Company

open Workspace

/-- A kernel whose jobs are not within a tick. -/
def of (k : Kernel) : Company :=
  ⟨k, fun _ _ => .endless⟩

inductive Event where
  /-- A job has a turn, and draws from these random numbers. -/
  | turn (generation : Nat) (entropy : Entropy)
  | stop (target : StopTarget)
  | round
  | pass (time : Nat)

def workspace (c : Company) : Workspace :=
  c.kernel.workspace

/-- The kernel with other random numbers. -/
def stirred (c : Company) (entropy : Entropy) : Kernel :=
  { c.kernel with workspace := c.workspace.stir entropy }

def next (c : Company) : Event → Company
  | .turn generation entropy =>
    { kernel := (c.stirred entropy).pollJob generation
      rest :=
        match c.kernel.job? generation with
        | some job =>
          Function.update c.rest generation
            (job.restAfter (c.rest generation) (c.workspace.stir entropy))
        | none => c.rest }
  | .stop target => { c with kernel := (c.kernel.stop target).2 }
  | .round => { c with kernel := c.kernel.beginRound }
  | .pass time => { c with kernel := c.kernel.passTo time }

def after (c : Company) (events : List Event) : Company :=
  events.foldl next c

/-- What a turn has to do with others. -/
def contacts (c : Company) (generation : Nat) (entropy : Entropy) : List Contact :=
  match (c.kernel.job? generation).bind
    (·.saga? (c.rest generation) (c.workspace.stir entropy)) with
  | some saga => saga.contacts
  | none => []

/-- The event concerns nobody else: a turn writes no global variable, does not call the device,
reads no input, starts no script and is not refused a start because of one that is running. -/
def IsPrivate (c : Company) : Event → Prop
  | .turn generation entropy => ∀ contact ∈ c.contacts generation entropy, contact.IsPrivate
  | _ => True

/-- So are all of these, one after the other. -/
def ArePrivate : Company → List Event → Prop
  | _, [] => True
  | c, event :: rest => c.IsPrivate event ∧ (c.next event).ArePrivate rest

/-- What comes of a tick of the instance that ends with the event. -/
def outcome? (c : Company) (generation : Nat) : Event → Option (Ticked × List Message)
  | .turn other entropy =>
    if other = generation then
      (c.kernel.job? generation).bind (·.ticked? (c.workspace.stir entropy))
    else none
  | _ => none

/-- What comes of the ticks of an instance, one after the other: the instance with its counter, its
variables and its settings, how the tick ended, and what was said. -/
def sequence (generation : Nat) : Company → List Event → List (Ticked × List Message)
  | _, [] => []
  | c, event :: rest =>
    (c.outcome? generation event).toList ++ (c.next event).sequence generation rest

end Company

end LineScript
