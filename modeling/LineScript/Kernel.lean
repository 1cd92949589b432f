import LineScript.Command.Builtin
import LineScript.Script.Tick

/-!
# The kernel

A workspace with the lines and the script instances that are at work on it. Each of them takes
its turns on its own: a line runs until it waits or is over, a job until it waits or has ended
its tick. The driver takes the turns of all jobs in one. Whatever can go on is called: lines and
the driver stand in a queue, and the driver has a list of the jobs to see to. Of several parties
that can go on since the same moment, the one that has waited longest is called first. The
operations here are the single turns and what a host can do between them.
-/

namespace LineScript

/-- What waits, and how it goes on. -/
structure Suspended (α : Type) where
  wait : Wait
  next : Workspace → Run α

/-- How far an instance in the driver's hands is on its way through its ticks. -/
inductive Phase where
  /-- It has just started or ended a tick, and will rest. -/
  | fresh
  /-- The next tick has to wait for a new round. -/
  | resting
  /-- It can begin a tick. -/
  | due
  /-- It is within a tick and waits. -/
  | waiting (rest : Suspended Ticked)
  /-- It nests lines without end. -/
  | lost

namespace Phase

def isFresh : Phase → Bool
  | .fresh => true
  | _ => false

def isResting : Phase → Bool
  | .resting => true
  | _ => false

def wait? : Phase → Option Wait
  | .waiting s => some s.wait
  | _ => none

def isLost : Phase → Bool
  | .lost => true
  | _ => false

end Phase

/-- An instance in the driver's hands, as it was before its tick. -/
structure Job where
  inst : Instance
  phase : Phase := .fresh

namespace Job

/-- A job is known by the generation of its instance. -/
def generation (job : Job) : Nat :=
  job.inst.generation

/-- What comes of a tick: the job goes on, or it is let go. -/
def settle (job : Job) (ws : Workspace) : Run Ticked → Option Job × Workspace
  | .done ⟨i, .running⟩ ws => (some { inst := i }, ws)
  | .done ⟨i, .ended _⟩ ws => (none, ws.finish i)
  | .done ⟨_, .cancelled⟩ ws => (none, ws)
  | .await wait ws next => (some { job with phase := .waiting ⟨wait, next⟩ }, ws)
  | .endless => (some { job with phase := .lost }, ws)

/-- The instance was stopped. -/
def isStale (job : Job) (ws : Workspace) : Bool :=
  !ws.isCurrent job.inst

/-- The job can do something with its turn. -/
def isReady (job : Job) (ws : Workspace) : Bool :=
  match job.phase with
  | .fresh => true
  | .resting => false
  | .due => true
  | .waiting s => job.isStale ws || s.wait.callsFor ws
  | .lost => job.isStale ws

/-- Let a job go. -/
def abandon (job : Job) (ws : Workspace) : Workspace :=
  match job.phase with
  | .waiting s => s.wait.abandon ws
  | _ => ws

/-- A turn of a job that is not let go. -/
def proceed (job : Job) (ws : Workspace) : Option Job × Workspace :=
  match job.phase with
  | .fresh => (some { job with phase := .resting }, ws)
  | .due => job.settle ws (job.inst.tick ws)
  | .waiting s =>
    if s.wait.isOver ws then job.settle ws (s.next ws) else (some job, s.wait.remain ws)
  | _ => (some job, ws)

/-- A turn of a job. One whose instance was stopped is let go, whatever it waits for, but not
before it has rested. -/
def poll (job : Job) (ws : Workspace) : Option Job × Workspace :=
  if job.isStale ws && !job.phase.isFresh then (none, job.abandon ws) else job.proceed ws

/-- A new round has begun. -/
def rise (job : Job) : Job :=
  if job.phase.isResting then { job with phase := .due } else job

end Job

/-- A line that the host submitted. -/
inductive LineState where
  | unstarted (text : String)
  | suspended (rest : Suspended Evaluation)
  /-- The host has given it up, and its next turn is its last. -/
  | cancelled (rest : Suspended Evaluation)
  | finished (evaluation : Evaluation)
  /-- It nests lines without end. -/
  | lost

namespace LineState

/-- The line can do something with its turn. -/
def isReady (ws : Workspace) : LineState → Bool
  | .unstarted _ => true
  | .suspended s => s.wait.callsFor ws
  | .cancelled _ => true
  | _ => false

def wait? : LineState → Option Wait
  | .suspended s => some s.wait
  | _ => none

end LineState

structure OpenLine where
  id : Nat
  state : LineState

/-- What is called when it can go on. -/
inductive Party where
  | line (id : Nat)
  | job (generation : Nat)
  deriving DecidableEq

def Job.party (job : Job) : Party :=
  .job job.generation

/-- What stands in the queue for a turn. -/
inductive Worker where
  | line (id : Nat)
  | driver
  deriving DecidableEq

structure Kernel where
  workspace : Workspace
  jobs : List Job := []
  /-- Lines whose outcome nobody has taken yet, in the order of submission. -/
  lines : List OpenLine := []
  nextLine : Nat := 0
  /-- What is called when it can go on, the party that has waited longest in front. -/
  parties : List Party := []
  /-- The jobs that the driver has to see to, by generation, the next one in front. -/
  ready : List Nat := []
  /-- What is to have a turn, the next one in front. -/
  queue : List Worker := []

/-- Why there is no kernel. -/
inductive KernelError where
  | noFolder (path : String)
  deriving DecidableEq

def KernelError.message : KernelError → String
  | .noFolder path => "script directory does not exist: " ++ path

namespace Kernel

/-- A kernel with a store, a device and commands of the host's choice. -/
def withParts (config : Config) (store : Store) (device : Device)
    (registry : Registry := Registry.standard) : Kernel :=
  { workspace := { config, store, device, registry } }

/-- A kernel on the folder that is configured, or on memory, without hardware. -/
def create (config : Config) (files : Files) : Except KernelError Kernel :=
  let device := Device.headless Device.standardScreen
  match config.scriptFolder with
  | none => .ok (withParts config Store.empty device)
  | some root =>
    if ((files.place? root).map files.isFolder).getD false then
      .ok (withParts config (.folder { files, root, extension := config.extension }) device)
    else
      .error (.noFolder root)

def line? (k : Kernel) (id : Nat) : Option LineState :=
  (k.lines.find? (·.id == id)).map (·.state)

def job? (k : Kernel) (generation : Nat) : Option Job :=
  k.jobs.find? (·.generation == generation)

/-- A script nests lines without end. A program that runs one does not survive it. -/
def isLost (k : Kernel) : Bool :=
  k.jobs.any (·.phase.isLost)

/-! ## Calls -/

def canGoOn (k : Kernel) : Party → Bool
  | .line id => ((k.line? id).map (·.isReady k.workspace)).getD false
  | .job generation => ((k.job? generation).map (·.isReady k.workspace)).getD false

/-- Stand in the queue, once. -/
def enqueue (k : Kernel) (worker : Worker) : Kernel :=
  if worker ∈ k.queue then k else { k with queue := k.queue ++ [worker] }

def call (k : Kernel) : Party → Kernel
  | .line id => k.enqueue (.line id)
  | .job generation =>
    let ready := if generation ∈ k.ready then k.ready else k.ready ++ [generation]
    { k with ready }.enqueue .driver

/-- What a party waits for. -/
def wait? (k : Kernel) : Party → Option Wait
  | .line id => (k.line? id).bind LineState.wait?
  | .job generation => (k.job? generation).bind (·.phase.wait?)

def isReader (k : Kernel) (party : Party) : Bool :=
  ((k.wait? party).map Wait.isForInput).getD false

/-- The parties that can go on: a reader of input, then the others. -/
def able (k : Kernel) : List Party :=
  let (readers, others) := (k.parties.filter k.canGoOn).partition k.isReader
  readers ++ others

/-- Call every party that can go on. The driver is also called for instances that have started. -/
def callReady (k : Kernel) : Kernel :=
  let called := k.able.foldl call k
  if k.workspace.inbox.isEmpty && k.ready.isEmpty then called else called.enqueue .driver

/-! ## The host -/

def drain (k : Kernel) : List Message × Kernel :=
  let drained := k.workspace.bus.drain
  (drained.1, { k with workspace := { k.workspace with bus := drained.2 } })

def provideInput (k : Kernel) (line : String) : Kernel :=
  { k with workspace := k.workspace.provideInput line }.callReady

def stop (k : Kernel) (target : StopTarget) : List String × Kernel :=
  let stopped := k.workspace.stop target
  (stopped.1, { k with workspace := stopped.2 }.callReady)

/-- Start scripts without waiting for them. -/
def start (k : Kernel) (names : List String) : Except StartError (Workspace.Started × Kernel) :=
  match k.workspace.startBatch none names with
  | .ok (started, ws) => .ok (started, { k with workspace := ws }.callReady)
  | .error e => .error e

/-- Submit a line, to which the host will give its turns. The result holds its number. -/
def submit (k : Kernel) (text : String) : Nat × Kernel :=
  (k.nextLine,
    { k with
      lines := k.lines ++ [{ id := k.nextLine, state := .unstarted text }]
      nextLine := k.nextLine + 1 })

/-- Submit a line that takes its turns in the queue. -/
def spawn (k : Kernel) (text : String) : Nat × Kernel :=
  let submitted := k.submit text
  let spawned : Kernel :=
    { submitted.2 with parties := submitted.2.parties ++ [.line submitted.1] }
  (submitted.1, spawned.callReady)

def activeNames (k : Kernel) : List String :=
  k.workspace.scheduler.names

def scriptNames (k : Kernel) : Except StoreError (List String) :=
  k.workspace.store.names

def isIdle (k : Kernel) : Bool :=
  k.workspace.scheduler.isIdle

/-- The state for a person to look at. -/
def describe (k : Kernel) : String :=
  "Kernel \x7b name: " ++ Text.quoted k.workspace.config.name ++ ", scheduler: " ++
    k.workspace.scheduler.describe ++ " \x7d"

/-! ## Turns of lines -/

/-- A party has had its turn. -/
def moveBack (k : Kernel) (party : Party) : Kernel :=
  if party ∈ k.parties then { k with parties := k.parties.erase party ++ [party] } else k

def setLine (k : Kernel) (id : Nat) (state : LineState) (ws : Workspace) : Kernel :=
  let changed : Kernel :=
    { k with
      workspace := ws
      lines := k.lines.map fun l => if l.id = id then { l with state } else l }
  changed.moveBack (.line id)

/-- Where a run has left a line. -/
def settleLine (k : Kernel) (id : Nat) : Run Evaluation → Kernel
  | .done evaluation ws => k.setLine id (.finished evaluation) ws
  | .await wait ws next => k.setLine id (.suspended ⟨wait, next⟩) ws
  | .endless => k.setLine id .lost k.workspace

/-- The kernel without a line. -/
def removeLine (k : Kernel) (id : Nat) : Kernel :=
  { k with
    lines := k.lines.filter (·.id != id)
    parties := k.parties.filter (· != .line id) }

/-- Take a line out, with its outcome if there is one. -/
def takeLine (k : Kernel) (id : Nat) : Option Evaluation × Kernel :=
  match k.line? id with
  | some (.finished evaluation) => (some evaluation, k.removeLine id)
  | _ => (none, k.removeLine id)

/-- Take a line out that waits. What it said is lost, its request is over, and scripts that it
started go on. -/
def discard (k : Kernel) (id : Nat) (wait : Wait) : Kernel :=
  { k.removeLine id with workspace := (wait.abandon k.workspace).endRequest }.callReady

/-- Give a line up. -/
def dropLine (k : Kernel) (id : Nat) : Kernel :=
  match k.line? id with
  | some (.suspended s) => k.discard id s.wait
  | some (.cancelled s) => k.discard id s.wait
  | _ => k.removeLine id

/-- Give a line up with its next turn. -/
def cancelLine (k : Kernel) (id : Nat) : Kernel :=
  match k.line? id with
  | some (.suspended s) => (k.setLine id (.cancelled s) k.workspace).callReady
  | _ => k.dropLine id

/-- A turn of a line. -/
def pollLine (k : Kernel) (id : Nat) : Kernel :=
  match k.line? id with
  | some (.unstarted text) => k.settleLine id (Line.runRequest text k.workspace)
  | some (.suspended s) =>
    if s.wait.isOver k.workspace then k.settleLine id (s.next k.workspace)
    else { k with workspace := s.wait.remain k.workspace }
  | some (.cancelled s) => k.discard id s.wait
  | _ => k

/-! ## Turns of jobs -/

/-- Take in the instances that have started. -/
def receive (k : Kernel) : Kernel :=
  let jobs : List Job := k.workspace.inbox.map fun i => { inst := i }
  let received : Kernel :=
    { k with
      jobs := k.jobs ++ jobs
      parties := k.parties ++ jobs.map Job.party
      workspace := { k.workspace with inbox := [] } }
  received.callReady

/-- Where its turn has left a job. -/
def settleJob (k : Kernel) (generation : Nat) (polled : Option Job × Workspace) : Kernel :=
  { k with
    workspace := polled.2
    jobs := k.jobs.filter (·.generation != generation) ++ polled.1.toList
    parties := k.parties.filter (· != .job generation) ++ polled.1.toList.map Job.party }

/-- A turn of a job. -/
def pollJob (k : Kernel) (generation : Nat) : Kernel :=
  match k.job? generation with
  | some job => k.settleJob generation (job.poll k.workspace)
  | none => k

/-- The job is still at its tick or at rest. -/
def isUnderWay (k : Kernel) (generation : Nat) : Bool :=
  match k.job? generation with
  | some job => !job.phase.isFresh
  | none => false

/-- The driver sees to one job after the other until none is left. When one has ended a tick or
is gone, the driver takes in what has started in the meantime. -/
def seeTo : Nat → Kernel → Kernel
  | 0, k => k
  | turns + 1, k =>
    match k.ready with
    | [] => k
    | generation :: rest =>
      let k := ({ k with ready := rest }.pollJob generation).callReady
      seeTo turns (if k.isUnderWay generation then k else k.receive)

/-! ## Rounds -/

/-- A turn of a worker; the driver has so many turns for jobs. -/
def turn (turns : Nat) (k : Kernel) : Worker → Kernel
  | .line id => k.pollLine id
  | .driver => k.receive.seeTo turns

/-- Give turns from the front of the queue until it is empty. -/
def work : Nat → Kernel → Kernel
  | 0, k => k
  | turns + 1, k =>
    match k.queue with
    | [] => k
    | worker :: _ =>
      let k := k.turn (turns + 1) worker
      work turns { k with queue := k.queue.erase worker }.callReady

/-- The jobs that wait for a new round, the one that has rested longest in front. -/
def resting (k : Kernel) : List Job :=
  k.jobs.filter (·.phase.isResting)

/-- Begin a new round. The job that came to rest last is the first to see to. -/
def beginRound (k : Kernel) : Kernel :=
  let risen : Kernel :=
    { k with
      jobs := k.jobs.map Job.rise
      ready := k.ready ++ (k.resting.map (·.generation)).reverse }
  risen.callReady

/-! ## Time -/

/-- The times at which a wait is over. -/
def deadlines (k : Kernel) : List Nat :=
  (k.lines.filterMap (·.state.wait?) ++ k.jobs.filterMap (·.phase.wait?)).filterMap Wait.deadline?

/-- Let time pass. -/
def passTo (k : Kernel) (time : Nat) : Kernel :=
  { k with workspace := { k.workspace with now := max k.workspace.now time } }.callReady

end Kernel

end LineScript
