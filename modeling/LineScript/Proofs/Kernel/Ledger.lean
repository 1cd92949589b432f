import LineScript.Proofs.Kernel.Motion
import LineScript.Proofs.Line.Descent

/-!
# A record of all that is sent

Messages reach the bus in parcels: notices about input and the running scripts, as soon as something
happens, and the transcripts of ticks and of lines of the host, each with the end of its line. A
`Ledger` is a kernel with a record of the parcels that were sent and of the lists that were drained.
For the lines that are under way it keeps where they began and what they have found after their
waits, which a kernel forgets.

* `Line.Leg` is what a line does between two waits, with the notices in their order.
* `Ledger.Step` is a move of the kernel with what it sends. A tick sends its transcript in one
  parcel if its instance is registered when its line is over, and else it sends none.
* What is sent comes to the bus after all that waits there: `Handled.pending` for the host,
  `Goes.pending_rest` for its lines and `Job.pending_settle` for ticks.
-/

namespace LineScript

/-! ## Parcels -/

/-- Messages that come to the bus in one piece. -/
inductive Parcel where
  /-- About input or the running scripts. -/
  | notice (said : List Message)
  /-- What was said in a tick of the instance of this generation. -/
  | tick (generation : Nat) (transcript : List Message)
  /-- What was said in a line of the host. -/
  | line (id : Nat) (transcript : List Message)

namespace Parcel

def messages : Parcel → List Message
  | notice said => said
  | tick _ transcript => transcript
  | line _ transcript => transcript

/-- All messages in some parcels, in order. -/
def contents (parcels : List Parcel) : List Message :=
  parcels.flatMap messages

/-- Nothing but notices. -/
def Notices (parcels : List Parcel) : Prop :=
  ∀ p ∈ parcels, ∃ said, p = notice said

@[simp] theorem contents_nil : contents [] = [] := rfl

@[simp] theorem contents_cons (p : Parcel) (ps : List Parcel) :
    contents (p :: ps) = p.messages ++ contents ps := rfl

@[simp] theorem contents_append (ps qs : List Parcel) :
    contents (ps ++ qs) = contents ps ++ contents qs :=
  List.flatMap_append

@[simp] theorem messages_notice (said : List Message) : (notice said).messages = said := rfl

@[simp] theorem messages_tick (generation : Nat) (transcript : List Message) :
    (tick generation transcript).messages = transcript := rfl

@[simp] theorem messages_line (id : Nat) (transcript : List Message) :
    (line id transcript).messages = transcript := rfl

theorem notices_singleton (said : List Message) : Notices [notice said] := by
  intro p mem
  exact ⟨said, List.mem_singleton.mp mem⟩

theorem Notices.append {ps qs : List Parcel} (hp : Notices ps) (hq : Notices qs) :
    Notices (ps ++ qs) := by
  intro p mem
  rcases List.mem_append.mp mem with left | right
  · exact hp p left
  · exact hq p right

end Parcel

open Parcel (contents Notices)

namespace Workspace

variable {ws ws' : Workspace} {said : List Message}

/-- The messages that nobody has drained. -/
def pending (ws : Workspace) : List Message :=
  ws.bus.pending.toList

@[simp] theorem pending_publish (ws : Workspace) (said : List Message) :
    (ws.publish said).pending = ws.pending ++ said :=
  ws.bus.toList_extend said

@[simp] theorem pending_push (ws : Workspace) (m : Message) :
    (ws.push m).pending = ws.pending ++ [m] :=
  ws.bus.toList_push m

theorem pending_endRequest (ws : Workspace) :
    ws.endRequest.pending = ws.pending ++ ws.endNotice := by
  unfold endRequest endNotice
  by_cases last : ws.busy = 1
  · simp only [if_pos last]
    exact pending_push _ _
  · simp only [if_neg last, List.append_nil]
    rfl

theorem pending_startBatch {invoker : Option String} {names : List String} {started : Started}
    (ok : ws.startBatch invoker names = .ok (started, ws')) :
    ws'.pending = ws.pending ++ startNotice names ws' := by
  obtain ⟨-, scripts, e, rfl, new, -, rfl⟩ := startBatch_ok ok
  show (ws.publish e.messages).pending = _
  rw [pending_publish, new.messages]
  unfold startNotice
  simp only [List.map_eq_nil_iff]

theorem pending_finish (ws : Workspace) (ended : Instance) :
    (ws.finish ended).pending = ws.pending ++ (ws.scheduler.finish ended).2 := by
  rw [finish_eq]
  exact ws.pending_publish _

theorem Handled.pending (h : ws.Handled said ws') : ws'.pending = ws.pending ++ said := by
  have same : ∀ wait : Wait, (wait.abandon ws).pending = ws.pending ∧
      (wait.abandon ws).endNotice = ws.endNotice := by
    intro wait
    cases wait <;> exact ⟨rfl, rfl⟩
  cases h with
  | start ok => exact pending_startBatch ok
  | stop target =>
    rw [stop_eq]
    exact ws.pending_publish _
  | remain wait =>
    rw [List.append_nil]
    cases wait <;> rfl
  | abandon wait => rw [(same wait).1, List.append_nil]
  | discard wait => rw [pending_endRequest, (same wait).1, (same wait).2]
  | _ => exact (List.append_nil _).symm

end Workspace

/-! ## Legs -/

namespace Line

variable {invoker : Option String} {ws mid last : Workspace} {said : List Message}
  {ps : List Parcel}

/-- What a line does to the workspace, and what is said with it. -/
inductive Sends (invoker : Option String) (ws : Workspace) : List Message → Workspace → Prop where
  | answer (ctx : Context) (r : Request) : Sends invoker ws [] (ctx.answer ws r).2.2
  | ask : Sends invoker ws [.input true] ws.askInput.1
  | read (ticket : Nat) : Sends invoker ws [.input (ws.busy == 0)] (ws.readInput ticket).2
  | start {names : List String} {started : Workspace.Started} {last : Workspace}
      (ok : ws.startBatch invoker names = .ok (started, last)) :
      Sends invoker ws (Workspace.startNotice names last) last

/-- What a line does between two waits, one thing after the other. -/
inductive Leg (invoker : Option String) (ws : Workspace) : List Parcel → Workspace → Prop where
  | nil : Leg invoker ws [] ws
  | snoc {ps : List Parcel} {mid last : Workspace} {said : List Message}
      (leg : Leg invoker ws ps mid) (sends : Sends invoker mid said last) :
      Leg invoker ws (ps ++ [.notice said]) last

theorem Sends.pending (h : Sends invoker ws said last) : last.pending = ws.pending ++ said := by
  cases h with
  | answer ctx r =>
    obtain ⟨globals, terminal, device, entropy, eq⟩ := ctx.answer_workspace ws r
    rw [eq, List.append_nil]
    rfl
  | ask => exact ws.pending_push _
  | read ticket => exact Workspace.pending_push _ _
  | start ok => exact Workspace.pending_startBatch ok

theorem Leg.pending (h : Leg invoker ws ps last) : last.pending = ws.pending ++ contents ps := by
  induction h with
  | nil => simp
  | snoc _ sends ih => simp [sends.pending, ih]

/-- On its way a line sends nothing but notices. -/
theorem Leg.notices (h : Leg invoker ws ps last) : Notices ps := by
  induction h with
  | nil => exact nofun
  | snoc _ _ ih => exact ih.append (Parcel.notices_singleton _)

theorem Effects.leg (effects : Effects invoker ws last) : ∃ ps, Leg invoker ws ps last := by
  induction effects with
  | refl => exact ⟨[], .nil⟩
  | tail _ effect ih =>
    obtain ⟨ps, leg⟩ := ih
    cases effect with
    | touch touch =>
      cases touch with
      | answer ctx r => exact ⟨_, leg.snoc (.answer ctx r)⟩
      | ask => exact ⟨_, leg.snoc .ask⟩
      | read ticket => exact ⟨_, leg.snoc (.read ticket)⟩
    | start ok => exact ⟨_, leg.snoc (.start ok)⟩

/-- What is sent when the evaluation of a line goes on. `opening` comes before all that the line
does, `closing` after its end; a line that nests without end does nothing. -/
inductive Goes (invoker : Option String) (ws : Workspace) (opening : List Parcel)
    (closing : Ended → Workspace → List Parcel) : Run Ended → List Parcel → Prop where
  | ends {e : Ended} {before : Workspace} {ps : List Parcel} (leg : Leg invoker ws ps before) :
      Goes invoker ws opening closing (.done e before) (opening ++ ps ++ closing e before)
  | waits {wait : Wait} {mid : Workspace} {next : Workspace → Run Ended} {ps : List Parcel}
      (leg : Leg invoker ws ps mid) :
      Goes invoker ws opening closing (.await wait mid next) (opening ++ ps)
  | endless : Goes invoker ws opening closing .endless []

theorem ActsFor.goes {owner : Option Instance} {run : Run Ended}
    (acts : ActsFor owner Ended.owner ws run) (opening : List Parcel)
    (closing : Ended → Workspace → List Parcel) :
    ∃ ps, Goes (owner.map (·.name)) ws opening closing run ps := by
  cases acts with
  | done final =>
    obtain ⟨ps, leg⟩ := Effects.leg final.1
    exact ⟨_, .ends leg⟩
  | await here _ =>
    obtain ⟨ps, leg⟩ := Effects.leg here
    exact ⟨_, .waits leg⟩
  | endless => exact ⟨_, .endless⟩

end Line

/-! ## Trails -/

namespace Run

variable {α : Type} {run run' : Run α} {found : List Workspace}

/-- What is left of a run that has found these workspaces after its waits. -/
inductive Reaches : Run α → List Workspace → Run α → Prop where
  | here (run : Run α) : Reaches run [] run
  | later {wait : Wait} {mid later : Workspace} {next : Workspace → Run α} {found : List Workspace}
      {run : Run α} (rest : Reaches (next later) found run) :
      Reaches (.await wait mid next) (later :: found) run

theorem Reaches.go {wait : Wait} {mid : Workspace} {next : Workspace → Run α}
    (h : run.Reaches found (.await wait mid next)) (ws : Workspace) :
    run.Reaches (found ++ [ws]) (next ws) := by
  generalize eq : Run.await wait mid next = waits at h
  induction h with
  | here run =>
    subst eq
    exact .later (.here _)
  | later _ ih => exact .later (ih eq)

theorem Reaches.unique {run'' : Run α} (h : run.Reaches found run') (h' : run.Reaches found run'') :
    run' = run'' := by
  induction h with
  | here run =>
    cases h'
    rfl
  | later _ ih =>
    cases h' with
    | later rest => exact ih rest

theorem Reaches.finish {value : α} {last : Workspace} (h : run.Reaches found (.done value last)) :
    run.finish found = some ⟨value, last, []⟩ := by
  generalize eq : Run.done value last = closed at h
  induction h with
  | here run =>
    subst eq
    rfl
  | later _ ih => exact ih eq

theorem eq_done_of_finish {r : Finished α} (closed : run.finish [] = some r) :
    run = .done r.value r.last := by
  cases run with
  | done value last =>
    cases closed
    rfl
  | await wait mid next => cases closed
  | endless => cases closed

theorem Obeys.reaches {E : Workspace → Workspace → Prop} {P : Workspace → α → Workspace → Prop}
    {ws : Workspace} (obeys : run.Obeys E P ws) (h : run.Reaches found run') :
    run'.Obeys E P (found.getLastD ws) := by
  induction h generalizing ws with
  | here run => exact obeys
  | later _ ih =>
    cases obeys with
    | await _ rest =>
      rw [List.getLastD_cons]
      exact ih (rest _)

end Run

/-- Where a line began, and what it has found after its waits. -/
structure Trail where
  line : String
  start : Workspace
  found : List Workspace := []

namespace Trail

variable {t : Trail} {owner : Option Instance}

/-- The evaluation of the line from its beginning. -/
def run (t : Trail) (owner : Option Instance) : Run Line.Ended :=
  Line.evaluate (Line.depthBound t.line ((owner.map (·.extent)).getD 0)) {} t.line owner [] t.start

/-- Where the line has gone on last. -/
def here (t : Trail) : Workspace :=
  t.found.getLastD t.start

/-- The line goes on. -/
def go (t : Trail) (ws : Workspace) : Trail :=
  { t with found := t.found ++ [ws] }

@[simp] theorem here_go (t : Trail) (ws : Workspace) : (t.go ws).here = ws := by
  simp [here, go]

/-- What is left of the line. -/
def Reaches (t : Trail) (owner : Option Instance) (run : Run Line.Ended) : Prop :=
  (t.run owner).Reaches t.found run

theorem Reaches.go {wait : Wait} {mid : Workspace} {next : Workspace → Run Line.Ended}
    (h : t.Reaches owner (.await wait mid next)) (ws : Workspace) :
    (t.go ws).Reaches owner (next ws) :=
  Run.Reaches.go h ws

theorem Reaches.finish {e : Line.Ended} {last : Workspace} (h : t.Reaches owner (.done e last)) :
    (t.run owner).finish t.found = some ⟨e, last, []⟩ :=
  Run.Reaches.finish h

theorem Reaches.unique {run run' : Run Line.Ended} (h : t.Reaches owner run)
    (h' : t.Reaches owner run') : run = run' :=
  Run.Reaches.unique h h'

/-- What is left of a line does what lines do. -/
theorem Reaches.actsFor {run : Run Line.Ended} (h : t.Reaches owner run) :
    Line.ActsFor owner Line.Ended.owner t.here run :=
  Run.Obeys.reaches (Line.evaluate_actsFor _ _ _ _ _ _) h

end Trail

/-! ## What is sent with the end of a line -/

namespace Line

/-- What is left of a line of the host: its transcript is published and its request is over. -/
def rest (run : Run Ended) : Run Evaluation :=
  run.bind fun e ws => .done e.evaluation (ws.publish e.transcript).endRequest

/-- What a line of the host sends with its end. -/
def closing (id : Nat) (e : Ended) (before : Workspace) : List Parcel :=
  [.line id e.transcript, .notice before.endNotice]

theorem runRequest_eq_rest (text : String) (ws : Workspace) :
    runRequest text ws = rest (Trail.run ⟨text, ws.beginRequest, []⟩ none) := by
  rw [runRequest, runBare, Run.bind_bind, rest, Trail.run]
  simp only [Run.bind, Option.map_none, Option.getD_none]

/-- All that a line of the host sends when it goes on comes to the bus. -/
theorem Goes.pending_rest {ws here : Workspace} {opening ps : List Parcel} {id : Nat}
    {run : Run Ended} (begins : here.pending = ws.pending ++ contents opening)
    (goes : Goes none here opening (closing id) run ps) :
    ((rest run).left ws).pending = ws.pending ++ contents ps := by
  cases goes with
  | @ends e before ps leg =>
    have same : (before.publish e.transcript).endNotice = before.endNotice := rfl
    show (before.publish e.transcript).endRequest.pending = _
    rw [Workspace.pending_endRequest, Workspace.pending_publish, same, leg.pending, begins]
    simp [closing]
  | @waits _ mid _ _ leg =>
    show mid.pending = _
    rw [leg.pending, begins]
    simp
  | endless => exact (List.append_nil _).symm

end Line

/-- What is sent when the end of a tick is handled. -/
def Ticked.farewell (ticked : Ticked) (ws : Workspace) : List Parcel :=
  match ticked.outcome with
  | .ended _ => [.notice (ws.scheduler.finish ticked.inst).2]
  | _ => []

theorem Ticked.farewell_notices (ticked : Ticked) (ws : Workspace) :
    Notices (ticked.farewell ws) := by
  unfold farewell
  split
  · exact Parcel.notices_singleton _
  · exact nofun

namespace Instance

variable {i : Instance} {e : Line.Ended}

/-- What is left of a tick: its end is decided on. -/
def rest (i : Instance) (run : Run Line.Ended) : Run Ticked :=
  run.bind fun e ws => .done (i.conclude e ws).1 (i.conclude e ws).2

/-- What a tick has said in one piece, unless the instance was stopped. -/
def block (i : Instance) (e : Line.Ended) (before : Workspace) : List Parcel :=
  if before.isCurrent i then [.tick i.generation e.transcript] else []

/-- What a tick sends with its end. -/
def closing (i : Instance) (e : Line.Ended) (before : Workspace) : List Parcel :=
  i.block e before ++ (i.conclude e before).1.farewell (i.conclude e before).2

theorem tick_eq_rest {line : String} (here : i.source[i.counter]? = some line) (ws : Workspace) :
    i.tick ws = i.rest (Trail.run ⟨line, ws, []⟩ (some i)) := by
  rw [tick, rest, Trail.run]
  simp only [here, Option.map_some, Option.getD_some]

theorem pending_conclude (mine : e.owner.map fixed = some i.fixed) (before : Workspace) :
    (i.conclude e before).2.pending = before.pending ++ contents (i.block e before) := by
  obtain ⟨j, owner, same⟩ := Option.map_eq_some_iff.mp mine
  have current : before.isCurrent j = before.isCurrent i :=
    before.isCurrent_congr (entry_eq_of_fixed_eq same)
  unfold conclude block
  rw [owner, Option.getD_some]
  dsimp only
  rw [current]
  by_cases registered : before.isCurrent i = true
  · rw [if_pos registered, if_pos registered]
    simp
  · rw [if_neg registered, if_neg registered]
    simp

end Instance

namespace Job

variable {job : Job} {ws : Workspace}

theorem pending_settle_done (ticked : Ticked) (last : Workspace) :
    (job.settle ws (.done ticked last)).2.pending =
      last.pending ++ contents (ticked.farewell last) := by
  obtain ⟨i, outcome⟩ := ticked
  cases outcome with
  | ended reason =>
    show (last.finish i).pending = _
    rw [Workspace.pending_finish]
    simp [Ticked.farewell]
  | running => exact (List.append_nil _).symm
  | cancelled => exact (List.append_nil _).symm

/-- All that a tick sends when it goes on comes to the bus. -/
theorem pending_settle {run : Run Line.Ended} {ps : List Parcel}
    (acts : Line.ActsFor (some job.inst) Line.Ended.owner ws run)
    (goes : Line.Goes (some job.inst.name) ws [] job.inst.closing run ps) :
    (job.settle ws (job.inst.rest run)).2.pending = ws.pending ++ contents ps := by
  cases goes with
  | @ends e before ps leg =>
    cases acts with
    | done final =>
      have concluded := Instance.pending_conclude final.2 before
      show (job.settle ws (.done _ _)).2.pending = _
      rw [pending_settle_done, concluded, leg.pending]
      simp [Instance.closing]
  | @waits _ mid _ _ leg =>
    show mid.pending = _
    rw [leg.pending]
    simp
  | endless => exact (List.append_nil _).symm

end Job

/-! ## Ledgers -/

/-- The trail of a line that goes on; `t` is the one that it has left. -/
def LineState.trail? (state : LineState) (t : Trail) (ws : Workspace) : Option Trail :=
  match state with
  | .unstarted text => some ⟨text, ws.beginRequest, []⟩
  | .suspended s => if s.wait.isOver ws then some (t.go ws) else none
  | _ => none

/-- What is sent before a line begins. -/
def LineState.opening : LineState → List Parcel
  | .unstarted _ => [.notice [.input false]]
  | _ => []

theorem LineState.opening_notices (state : LineState) : Notices state.opening := by
  cases state with
  | unstarted text => exact Parcel.notices_singleton _
  | suspended s => exact nofun
  | cancelled s => exact nofun
  | finished evaluation => exact nofun
  | lost => exact nofun

/-- The trail of a job that goes on with a line. -/
def Job.trail? (job : Job) (t : Trail) (ws : Workspace) : Option Trail :=
  if job.isStale ws then none
  else
    match job.phase with
    | .due => job.inst.source[job.inst.counter]?.map fun line => ⟨line, ws, []⟩
    | .waiting s => if s.wait.isOver ws then some (t.go ws) else none
    | _ => none

theorem LineState.trail?_cases {state : LineState} {t trail : Trail} {ws : Workspace}
    (goesOn : state.trail? t ws = some trail) :
    (∃ text, state = .unstarted text ∧ trail = ⟨text, ws.beginRequest, []⟩) ∨
      ∃ s, state = .suspended s ∧ s.wait.isOver ws = true ∧ trail = t.go ws := by
  cases state with
  | unstarted text => exact .inl ⟨text, rfl, (Option.some.inj goesOn).symm⟩
  | suspended s =>
    simp only [trail?] at goesOn
    split at goesOn
    · rename_i elapsed
      exact .inr ⟨s, rfl, elapsed, (Option.some.inj goesOn).symm⟩
    · cases goesOn
  | cancelled s => cases goesOn
  | finished evaluation => cases goesOn
  | lost => cases goesOn

theorem LineState.pending_here {state : LineState} {t trail : Trail} {ws : Workspace}
    (goesOn : state.trail? t ws = some trail) :
    trail.here.pending = ws.pending ++ contents state.opening := by
  obtain ⟨text, rfl, rfl⟩ | ⟨s, rfl, -, rfl⟩ := trail?_cases goesOn
  · exact Workspace.pending_push _ _
  · simp [opening]

theorem Job.trail?_cases {job : Job} {t trail : Trail} {ws : Workspace}
    (goesOn : job.trail? t ws = some trail) :
    ws.isCurrent job.inst = true ∧
      ((∃ line, job.phase = .due ∧ job.inst.source[job.inst.counter]? = some line ∧
          trail = ⟨line, ws, []⟩) ∨
        ∃ s, job.phase = .waiting s ∧ s.wait.isOver ws = true ∧ trail = t.go ws) := by
  unfold trail? at goesOn
  split at goesOn
  · cases goesOn
  · rename_i current
    refine ⟨by simpa [isStale] using current, ?_⟩
    cases phase : job.phase with
    | due =>
      rw [phase] at goesOn
      obtain ⟨line, here, rfl⟩ := Option.map_eq_some_iff.mp goesOn
      exact .inl ⟨line, rfl, here, rfl⟩
    | waiting s =>
      simp only [phase] at goesOn
      split at goesOn
      · rename_i elapsed
        exact .inr ⟨s, rfl, elapsed, (Option.some.inj goesOn).symm⟩
      · cases goesOn
    | _ => simp [phase] at goesOn

theorem Job.here_eq {job : Job} {t trail : Trail} {ws : Workspace}
    (goesOn : job.trail? t ws = some trail) : trail.here = ws := by
  obtain ⟨-, ⟨line, -, -, rfl⟩ | ⟨s, -, -, rfl⟩⟩ := trail?_cases goesOn
  · rfl
  · exact t.here_go ws

/-- A kernel with a record of what was sent and drained. -/
structure Ledger where
  kernel : Kernel
  /-- The trails of ticks, by generation. -/
  ticks : Nat → Trail
  /-- The trails of lines of the host. -/
  lines : Nat → Trail
  sent : List Parcel := []
  drained : List (List Message) := []

namespace Ledger

/-- Nothing was sent yet. -/
def of (k : Kernel) : Ledger where
  kernel := k
  ticks _ := ⟨"", k.workspace, []⟩
  lines _ := ⟨"", k.workspace, []⟩

def workspace (l : Ledger) : Workspace :=
  l.kernel.workspace

/-- A move, with what it sends. -/
inductive Step (l : Ledger) : Ledger → Prop where
  /-- Nobody goes on. -/
  | host {said : List Message} {k' : Kernel} (handled : l.workspace.Handled said k'.workspace)
      (jobs : k'.jobs = l.kernel.jobs) (lines : l.kernel.LinesRest k') :
      Step l { l with kernel := k', sent := l.sent ++ [.notice said] }
  | drain {k' : Kernel} (workspace : k'.workspace = l.kernel.drain.2.workspace)
      (jobs : k'.jobs = l.kernel.jobs) (lines : k'.lines = l.kernel.lines) :
      Step l { l with kernel := k', drained := l.drained ++ [l.kernel.drain.1] }
  /-- A line of the host goes on. -/
  | line {id : Nat} {state : LineState} {trail : Trail} {run : Run Line.Ended} {ps : List Parcel}
      (found : l.kernel.line? id = some state)
      (goesOn : state.trail? (l.lines id) l.workspace = some trail)
      (reaches : trail.Reaches none run)
      (goes : Line.Goes none trail.here state.opening (Line.closing id) run ps) :
      Step l { l with
        kernel := l.kernel.settleLine id (Line.rest run)
        lines := Function.update l.lines id trail
        sent := l.sent ++ ps }
  /-- A job goes on with its line. -/
  | tick {generation : Nat} {job : Job} {trail : Trail} {run : Run Line.Ended} {ps : List Parcel}
      (found : l.kernel.job? generation = some job)
      (goesOn : job.trail? (l.ticks generation) l.workspace = some trail)
      (reaches : trail.Reaches (some job.inst) run)
      (goes : Line.Goes (some job.inst.name) trail.here [] job.inst.closing run ps) :
      Step l { l with
        kernel := l.kernel.settleJob generation (job.settle l.workspace (job.inst.rest run))
        ticks := Function.update l.ticks generation trail
        sent := l.sent ++ ps }
  /-- A job has no line to go on with. -/
  | exhausted {generation : Nat} {job : Job} (found : l.kernel.job? generation = some job)
      (due : job.run? l.workspace = some (.done ⟨job.inst, .ended .completed⟩ l.workspace))
      (none : job.inst.source[job.inst.counter]? = none) :
      Step l { l with
        kernel := l.kernel.settleJob generation (.none, l.workspace.finish job.inst)
        sent := l.sent ++ [.notice (l.workspace.scheduler.finish job.inst).2] }
  /-- A job has its turn in vain. -/
  | rest {generation : Nat} {job : Job} {left : Option Job} {ws : Workspace}
      (found : l.kernel.job? generation = some job) (idle : job.run? l.workspace = none)
      (handled : l.workspace.Handled [] ws) (rests : ∀ job', left = some job' → job.Rests job') :
      Step l { l with kernel := l.kernel.settleJob generation (left, ws) }
  | receive : Step l { l with kernel := l.kernel.receive }
  | beginRound : Step l { l with kernel := l.kernel.beginRound }

/-- Any number of moves. -/
abbrev Steps : Ledger → Ledger → Prop :=
  Relation.ReflTransGen Step

end Ledger

end LineScript
