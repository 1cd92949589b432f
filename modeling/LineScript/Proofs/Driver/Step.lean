import LineScript.Proofs.Scheduler.Accounting
import LineScript.Proofs.Script.Tick
import LineScript.Proofs.Workspace.Start

/-!
# The driver, step by step

A driver takes instances out of the inbox, has a unit of work for each of them, and handles what
comes of their ticks. Starts and stops come in between from everywhere: from the host, from bare
lines, and from the lines of the units themselves. Here each of these is a step of its own, and a
run takes them in any order. A unit that was stopped goes on until it notices, so it may do
anything that a line can do, start a batch as well, before its tick is over.

`Leaves` is how the tick of a unit ends and `handled` is what is done about it; `Step` has both
beside all that may happen in between.
-/

namespace LineScript

/-- What a host or a bare line does to the workspace apart from starts and stops. -/
inductive Aside (ws : Workspace) : Workspace → Prop where
  | touch {ws' : Workspace} (h : Line.Touch ws ws') : Aside ws ws'
  | publish (said : List Message) : Aside ws (ws.publish said)
  | beginRequest : Aside ws ws.beginRequest
  | endRequest : Aside ws ws.endRequest
  | provideInput (line : String) : Aside ws (ws.provideInput line)
  | drain : Aside ws { ws with bus := ws.bus.drain.2 }
  | pass (time : Nat) : Aside ws { ws with now := time }
  | restock (store : Store) : Aside ws { ws with store }
  | remain (wait : Wait) : Aside ws (wait.remain ws)
  | abandon (wait : Wait) : Aside ws (wait.abandon ws)

/-- None of this concerns the scripts. -/
theorem Aside.frame {ws ws' : Workspace} (h : Aside ws ws') :
    ws'.scheduler = ws.scheduler ∧ ws'.inbox = ws.inbox := by
  cases h with
  | touch h => exact ⟨h.frame.1, h.frame.2.1⟩
  | endRequest =>
    unfold Workspace.endRequest
    dsimp only
    split <;> exact ⟨rfl, rfl⟩
  | remain wait => cases wait <;> exact ⟨rfl, rfl⟩
  | abandon wait => cases wait <;> exact ⟨rfl, rfl⟩
  | _ => exact ⟨rfl, rfl⟩

structure Driver where
  workspace : Workspace
  /-- The units of work: instances whose next tick is due or under way. -/
  units : List Instance := []
  /-- What came of ticks that are over, and was not handled yet. -/
  outcomes : List Ticked := []
  /-- The entries that were told to stop. -/
  told : List Active := []

namespace Driver

/-- The instances in the hands of the driver. -/
def held (d : Driver) : List Instance :=
  d.workspace.inbox ++ d.units ++ d.outcomes.map (·.inst)

/-- Nothing has started yet. -/
structure Fresh (d : Driver) : Prop where
  scheduler : d.workspace.scheduler = {}
  inbox : d.workspace.inbox = []
  units : d.units = []
  outcomes : d.outcomes = []
  told : d.told = []

/-- How the tick of a unit ends. One that was stopped is given up if it is found out before the
tick or if it has been told so within; else the tick comes to its own end, which may still be to
find out that the instance was stopped. -/
inductive Leaves (d : Driver) (i : Instance) : Ticked → Workspace → Prop where
  | stale {j : Instance} (same : j.fixed = i.fixed) (gone : d.workspace.isCurrent i = false) :
      Leaves d i ⟨j, .cancelled⟩ d.workspace
  | told {j : Instance} (same : j.fixed = i.fixed) (told : i.entry ∈ d.told) :
      Leaves d i ⟨j, .cancelled⟩ d.workspace
  | concludes {ticked : Ticked} {ws : Workspace} (h : i.Concludes d.workspace ticked ws) :
      Leaves d i ticked ws

/-- What is done about an outcome: the unit goes on, the instance is removed, or it is dropped. -/
def handled (d : Driver) (ticked : Ticked) (rest : List Ticked) : Driver :=
  match ticked.outcome with
  | .running => { d with units := d.units ++ [ticked.inst], outcomes := rest }
  | .ended _ => { d with workspace := d.workspace.finish ticked.inst, outcomes := rest }
  | .cancelled => { d with outcomes := rest }

inductive Event where
  /-- Instances have started; a unit has started them, or somebody outside. -/
  | start (starter : Option Instance) (batch : List Instance)
  | receive (i : Instance)
  /-- A unit does something within its tick. -/
  | act (i : Instance)
  /-- The tick of a unit is over. -/
  | conclude (ticked : Ticked)
  | handle (ticked : Ticked)
  | stop (target : StopTarget)
  /-- A host or a bare line does something beside the scripts. -/
  | aside

/-- The instances that an event starts. -/
def Event.started : Event → List Instance
  | .start _ batch => batch
  | _ => []

/-- The instance in whose tick an event happens or whose outcome it handles. -/
def Event.actor : Event → Option Instance
  | .start starter _ => starter
  | .act i => some i
  | .conclude ticked => some ticked.inst
  | .handle ticked => some ticked.inst
  | _ => none

inductive Step (d : Driver) : Event → Driver → Prop where
  | start {starter : Option Instance} {names : List String} {started : Workspace.Started}
      {ws : Workspace} {batch : List Instance} (unit : ∀ i, starter = some i → i ∈ d.units)
      (ok : d.workspace.startBatch (starter.map (·.name)) names = .ok (started, ws))
      (sent : ws.inbox = d.workspace.inbox ++ batch) :
      Step d (.start starter batch) { d with workspace := ws }
  | receive {i : Instance} {rest : List Instance} (first : d.workspace.inbox = i :: rest) :
      Step d (.receive i)
        { d with workspace := { d.workspace with inbox := rest }, units := d.units ++ [i] }
  | act {i : Instance} {ws : Workspace} (unit : i ∈ d.units)
      (touch : Line.Touch d.workspace ws) : Step d (.act i) { d with workspace := ws }
  | conclude {i : Instance} {rest : List Instance} {ticked : Ticked} {ws : Workspace}
      (unit : d.units.Perm (i :: rest)) (leaves : d.Leaves i ticked ws) :
      Step d (.conclude ticked)
        { d with workspace := ws, units := rest, outcomes := d.outcomes ++ [ticked] }
  | handle {ticked : Ticked} {rest : List Ticked} (waits : d.outcomes.Perm (ticked :: rest)) :
      Step d (.handle ticked) (d.handled ticked rest)
  | stop (target : StopTarget) :
      Step d (.stop target)
        { d with
          workspace := (d.workspace.stop target).2
          told := d.told ++ d.workspace.scheduler.targeted target }
  | aside {ws : Workspace} (h : Aside d.workspace ws) : Step d .aside { d with workspace := ws }

/-- Any number of steps, one after the other. -/
inductive Runs (d : Driver) : List Event → Driver → Prop where
  | nil : Runs d [] d
  | snoc {events : List Event} {event : Event} {d₁ d₂ : Driver} (run : Runs d events d₁)
      (step : d₁.Step event d₂) : Runs d (events ++ [event]) d₂

variable {d d' d'' : Driver} {event : Event} {events later : List Event}

theorem Step.runs (step : d.Step event d') : d.Runs [event] d' :=
  .snoc .nil step

theorem Runs.append (run : d.Runs events d') (rest : d'.Runs later d'') :
    d.Runs (events ++ later) d'' := by
  induction rest with
  | nil => simpa using run
  | snoc _ step ih =>
    rw [← List.append_assoc]
    exact .snoc ih step

/-! ## The end of a tick -/

theorem Leaves.ending {i : Instance} {ticked : Ticked} {ws : Workspace} (h : d.Leaves i ticked ws)
    (gone : ∀ e ∈ d.told, d.workspace.scheduler.Departed e) :
    i.Ending d.workspace ticked ws := by
  cases h with
  | stale same stale => exact .of_stale same stale
  | told same told => exact .of_stale same (gone _ told).not_current
  | concludes h => exact h.ending

/-! ## The instances in the driver's hands -/

/-- The registrations of the instances in the driver's hands. -/
def entries (d : Driver) : List Active :=
  d.held.map Instance.entry

/-! ## A script that is started twice -/

/-- A driver with nothing to do, and one script to start. -/
def idle : Driver :=
  { workspace :=
      { config := .isolated
        registry := {}
        device := .recording
        store := .memory ⟨[("a", "print 1")]⟩ } }

theorem idle_fresh : idle.Fresh :=
  ⟨rfl, rfl, rfl, rfl, rfl⟩

/-- The script was started, stopped after its unit was made, and started again. The first unit has
not noticed yet. -/
def overtaken : Driver :=
  { workspace :=
      { idle.workspace with
        scheduler :=
          { active := [⟨"a", 2, 2⟩], batches := [⟨2, 1⟩], lastBatch := 2, nextGeneration := 3 }
        bus := ⟨#[.scripts ["a"], .scripts [], .scripts ["a"]]⟩
        inbox := [.ofText "a" "print 1" 2 2] }
    units := [.ofText "a" "print 1" 1 1]
    told := [⟨"a", 1, 1⟩] }

/-- The events that lead there. -/
def overtaking : List Event :=
  [.start none [.ofText "a" "print 1" 1 1], .receive (.ofText "a" "print 1" 1 1),
    .stop (.named "a"), .start none [.ofText "a" "print 1" 2 2]]

theorem idle_runs_overtaken : idle.Runs overtaking overtaken := by
  let first : Workspace :=
    { idle.workspace with
      scheduler :=
        { active := [⟨"a", 1, 1⟩], batches := [⟨1, 1⟩], lastBatch := 1, nextGeneration := 2 }
      bus := ⟨#[.scripts ["a"]]⟩
      inbox := [.ofText "a" "print 1" 1 1] }
  let stopped : Workspace :=
    { idle.workspace with
      scheduler := { lastBatch := 1, nextGeneration := 2 }
      bus := ⟨#[.scripts ["a"], .scripts []]⟩ }
  have once : idle.workspace.startBatch none ["a"] = .ok (⟨1, ["a"]⟩, first) := rfl
  have again : stopped.startBatch none ["a"] = .ok (⟨2, ["a"]⟩, overtaken.workspace) := rfl
  have nobody : ∀ (d : Driver) i, (none : Option Instance) = some i → i ∈ d.units := by simp
  have run := Runs.nil (d := idle)
    |>.snoc (.start (nobody _) once rfl)
    |>.snoc (.receive rfl)
    |>.snoc (.stop (.named "a"))
    |>.snoc (.start (nobody _) again rfl)
  exact run

/-- Then the first unit notices that it was stopped. -/
def givenUp : Driver :=
  { overtaken with units := [], outcomes := [⟨.ofText "a" "print 1" 1 1, .cancelled⟩] }

theorem overtaken_step_givenUp :
    overtaken.Step (.conclude ⟨.ofText "a" "print 1" 1 1, .cancelled⟩) givenUp :=
  .conclude (.refl _) (.told rfl List.mem_cons_self)

end Driver

end LineScript
