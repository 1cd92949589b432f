import LineScript.Proofs.Input.Advance

/-!
# The desk

A kernel with notes of all that happens to requests and reads. Each operation of the host, each turn
of a line and each turn of a script leaves a few notes, in order; `Desk.Step` has them all. A read
of a script that was stopped may also end by itself, before the script is let go.

* `Kernel.inFlight` counts the lines whose request has begun and is not over.
* `Desk.Sound` ties the notes to the kernel, and every step keeps it (`Sound.step`).
* `Kernel.Act` lists what a host can do to a kernel, and all of it can be written down at the desk
  (`Sound.exists_step`), unless lines are nested without end, which no program survives.
-/

namespace LineScript

open Note (lastToggle?)

/-! ## Kernels -/

namespace Kernel

variable {k k' : Kernel}

/-- How many requests of the host are in flight. -/
def inFlight (k : Kernel) : Nat :=
  k.lines.countP (·.state.isInFlight)

/-- Nobody nests lines without end. -/
structure Survives (k : Kernel) : Prop where
  lines : ∀ line ∈ k.lines, line.state.isLost = false
  jobs : k.isLost = false

instance (k : Kernel) : Decidable k.Survives :=
  decidable_of_iff ((∀ line ∈ k.lines, line.state.isLost = false) ∧ k.isLost = false)
    ⟨fun ⟨lines, jobs⟩ => ⟨lines, jobs⟩, fun ⟨lines, jobs⟩ => ⟨lines, jobs⟩⟩

theorem Survives.of_eq (h : k'.Survives) (jobs : k'.jobs = k.jobs) (lines : k'.lines = k.lines) :
    k.Survives := by
  refine ⟨lines ▸ h.lines, ?_⟩
  rw [isLost, ← jobs]
  exact h.jobs

/-- A kernel on which nothing has happened, and of which nothing was asked. -/
structure Blank (k : Kernel) : Prop where
  jobs : k.jobs = []
  lines : k.lines = []
  busy : k.workspace.busy = 0
  requests : k.workspace.requests = 0
  inputs : k.workspace.inputs = []
  readers : k.workspace.readers = []
  pending : k.workspace.pending = []

theorem withParts_blank (config : Config) (store : Store) (device : Device) (registry : Registry) :
    (withParts config store device registry).Blank :=
  ⟨rfl, rfl, rfl, rfl, rfl, rfl, rfl⟩

/-- Each line has a number of its own. -/
def Numbered (k : Kernel) : Prop :=
  (k.lines.map (·.id)).Nodup

/-- Lines come and go, but none that is in flight, and none goes on. -/
structure Undisturbed (k k' : Kernel) : Prop where
  flight : k'.inFlight = k.inFlight
  numbered : k.Numbered → k'.Numbered
  waits : ∀ line ∈ k'.lines, line ∈ k.lines ∨ ∀ s, line.state ≠ .suspended s

theorem Undisturbed.of_eq (lines : k'.lines = k.lines) : k.Undisturbed k' where
  flight := by rw [inFlight, inFlight, lines]
  numbered := by
    unfold Numbered
    rw [lines]
    exact id
  waits _ mem := .inl (lines ▸ mem)

/-! ### Counting lines -/

section

variable {lines : List OpenLine} {line : OpenLine} {id : Nat}

theorem map_of_new (state : LineState) (new : id ∉ lines.map (·.id)) :
    (lines.map fun l => if l.id = id then { l with state } else l) = lines := by
  refine (List.map_congr_left fun l mem => ?_).trans (List.map_id' lines)
  rw [if_neg]
  rintro rfl
  exact new (List.mem_map_of_mem mem)

theorem filter_of_new (new : id ∉ lines.map (·.id)) :
    lines.filter (·.id != id) = lines := by
  refine List.filter_eq_self.mpr fun l mem => bne_iff_ne.mpr ?_
  rintro rfl
  exact new (List.mem_map_of_mem mem)

/-- To change the state of one line changes the count by that line. -/
theorem countP_map (p : LineState → Bool) (state : LineState)
    (distinct : (lines.map (·.id)).Nodup) (found : lines.find? (·.id == id) = some line) :
    (lines.map fun l => if l.id = id then { l with state } else l).countP (p ·.state) +
        (p line.state).toNat =
      lines.countP (p ·.state) + (p state).toNat := by
  induction lines with
  | nil => cases found
  | cons first rest ih =>
    rw [List.map_cons, List.nodup_cons] at distinct
    rw [List.map_cons, List.countP_cons, List.countP_cons]
    by_cases mine : first.id = id
    · -- Numbers are distinct, so the rest has no line of this one.
      obtain rfl : first = line := by simpa [mine] using found
      rw [if_pos mine, map_of_new state (mine ▸ distinct.1)]
      cases p first.state <;> cases p state <;> simp
    · have later : rest.find? (·.id == id) = some line := by simpa [mine] using found
      have counted := ih distinct.2 later
      rw [if_neg mine]
      omega

/-- To take one line out changes the count by that line. -/
theorem countP_filter (p : LineState → Bool) (distinct : (lines.map (·.id)).Nodup)
    (found : lines.find? (·.id == id) = some line) :
    (lines.filter (·.id != id)).countP (p ·.state) + (p line.state).toNat =
      lines.countP (p ·.state) := by
  induction lines with
  | nil => cases found
  | cons first rest ih =>
    rw [List.map_cons, List.nodup_cons] at distinct
    by_cases mine : first.id = id
    · obtain rfl : first = line := by simpa [mine] using found
      rw [List.filter_cons_of_neg (by simp [mine]), filter_of_new (mine ▸ distinct.1),
        List.countP_cons]
      cases p first.state <;> simp
    · have later : rest.find? (·.id == id) = some line := by simpa [mine] using found
      have counted := ih distinct.2 later
      rw [List.filter_cons_of_pos (by simp [mine]), List.countP_cons, List.countP_cons]
      omega

end

theorem numbered_map (distinct : k.Numbered) (id : Nat) (state : LineState) :
    ((k.lines.map fun l => if l.id = id then { l with state } else l).map (·.id)).Nodup := by
  have same : (fun l : OpenLine => (if l.id = id then { l with state } else l : OpenLine).id) =
      (·.id) := by
    funext l
    split <;> rfl
  rwa [List.map_map, Function.comp_def, same]

theorem numbered_filter (distinct : k.Numbered) (id : Nat) :
    ((k.lines.filter (·.id != id)).map (·.id)).Nodup :=
  distinct.sublist (List.filter_sublist.map _)

theorem settleLine_lines (k : Kernel) (id : Nat) (run : Run Evaluation) :
    (k.settleLine id run).lines =
      k.lines.map fun l => if l.id = id then { l with state := .after run } else l := by
  cases run <;> exact (moveBack_same _ _).lines

theorem inFlight_settleLine (distinct : k.Numbered) {id : Nat} {state : LineState}
    (found : k.line? id = some state) (run : Run Evaluation) :
    (k.settleLine id run).inFlight + state.isInFlight.toNat =
      k.inFlight + (LineState.after run).isInFlight.toNat := by
  obtain ⟨line, first, rfl⟩ := Option.map_eq_some_iff.mp found
  rw [inFlight, settleLine_lines]
  exact countP_map _ _ distinct first

theorem inFlight_removeLine (distinct : k.Numbered) {id : Nat} {state : LineState}
    (found : k.line? id = some state) :
    (k.removeLine id).inFlight + state.isInFlight.toNat = k.inFlight := by
  obtain ⟨line, first, rfl⟩ := Option.map_eq_some_iff.mp found
  exact countP_filter _ distinct first

end Kernel

/-! ## What happens by itself -/

namespace Kernel

/-- What happens by itself while nothing is stopped and no line is given up, with notes. -/
inductive Happens (k : Kernel) : List Note → Kernel → Prop where
  /-- Nobody goes on. -/
  | aside {k' : Kernel} (apart : k.workspace.Apart [] k'.workspace) (jobs : k'.jobs = k.jobs)
      (lines : k'.lines = k.lines) : Happens k [⟨none, []⟩] k'
  /-- A line goes on. -/
  | line {id : Nat} {state : LineState} {run : Run Evaluation} {notes : List Note}
      (found : k.line? id = some state) (goesOn : state.run? k.workspace = some run)
      (advances : Line.Advances (state.here k.workspace) run notes) :
      Happens k (state.entry k.workspace ++ notes) (k.settleLine id run)
  /-- A job goes on. -/
  | job {generation : Nat} {job : Job} {run : Run Ticked} {notes : List Note}
      (found : k.job? generation = some job) (goesOn : job.run? k.workspace = some run)
      (advances : job.Advances k.workspace (job.here k.workspace) run notes) :
      Happens k (job.entry k.workspace ++ notes)
        (k.settleJob generation (job.settle k.workspace run))
  /-- A job has its turn in vain. -/
  | rest {generation : Nat} {job job' : Job} {ws : Workspace}
      (found : k.job? generation = some job) (apart : k.workspace.Apart [] ws)
      (rests : job.Rests job') (waits : job'.phase.wait? = job.phase.wait?) :
      Happens k [⟨none, []⟩] (k.settleJob generation (some job', ws))
  | receive : Happens k [⟨none, []⟩] k.receive
  | beginRound : Happens k [⟨none, []⟩] k.beginRound

end Kernel

/-! ## The desk -/

structure Desk where
  kernel : Kernel
  /-- What has happened to requests and reads, in order. -/
  notes : List Note := []
  /-- What the host has taken from the bus, in order. -/
  drained : List Message := []

namespace Desk

def workspace (d : Desk) : Workspace :=
  d.kernel.workspace

/-- Nothing has happened yet. -/
def of (k : Kernel) : Desk where
  kernel := k

/-- The kernel after something has happened. -/
def next (d : Desk) (notes : List Note) (k : Kernel) : Desk :=
  { d with kernel := k, notes := d.notes ++ notes }

/-- What the host takes from the bus. -/
def drain (d : Desk) : Desk :=
  { d with kernel := d.kernel.drain.2, drained := d.drained ++ d.kernel.drain.1 }

/-- What is done to a kernel and what happens there by itself, with notes. -/
inductive Step (d : Desk) : Desk → Prop where
  | happens {notes : List Note} {k : Kernel} (happens : d.kernel.Happens notes k) :
      Step d (d.next notes k)
  /-- The host does something, and leaves requests and reads alone. -/
  | host {said : List Message} {k : Kernel} (apart : d.workspace.Apart said k.workspace)
      (jobs : k.jobs = d.kernel.jobs) (lines : d.kernel.Undisturbed k) :
      Step d (d.next [⟨none, said⟩] k)
  | provideInput (line : String) :
      Step d (d.next [⟨some (.provides line), []⟩] (d.kernel.provideInput line))
  | drain : Step d d.drain
  /-- A line is given up that is in flight. -/
  | discard {id : Nat} {state : LineState} {s : Suspended Evaluation}
      (found : d.kernel.line? id = some state)
      (waits : state = .suspended s ∨ state = .cancelled s) :
      Step d (d.next (s.wait.abandoned ++ [⟨some .settles, d.workspace.endNotice⟩])
        (d.kernel.discard id s.wait))
  /-- The instance of a job was stopped, and the job is let go. -/
  | release {generation : Nat} {job : Job} (found : d.kernel.job? generation = some job)
      (stale : job.isStale d.workspace = true) :
      Step d (d.next job.abandoned
        (d.kernel.settleJob generation (none, job.abandon d.workspace)))
  /-- The instance of a job was stopped, and its read has ended by itself before the job is let
  go. -/
  | cancel {generation ticket : Nat} {job : Job} (found : d.kernel.job? generation = some job)
      (stale : job.isStale d.workspace = true)
      (reads : job.phase.wait? = some (.input ticket)) :
      Step d (d.next [⟨some (.cancels ticket), [.input (d.workspace.busy == 0)]⟩]
        (d.kernel.settleJob generation (none,
          (d.workspace.leaveQueue ticket).push (.input (d.workspace.busy == 0)))))

/-- Any number of steps. -/
abbrev Steps : Desk → Desk → Prop :=
  Relation.ReflTransGen Step

/-- Whoever waits for input has said so. -/
def Spoken (notes : List Note) (wait? : Option Wait) : Prop :=
  ∀ ticket, wait? = some (.input ticket) → lastToggle? notes ≠ none

/-- The notes go with the kernel. -/
structure Sound (d : Desk) : Prop where
  numbered : d.kernel.Numbered
  flight : d.workspace.busy = d.kernel.inFlight
  balanced : d.workspace.Balanced d.notes
  fair : Note.Fair d.notes
  told : d.drained ++ d.workspace.pending = d.notes.flatMap (·.said)
  lines : ∀ line ∈ d.kernel.lines, line.state.Converses ∧ Spoken d.notes line.state.wait?
  jobs : ∀ job ∈ d.kernel.jobs, job.Converses ∧ Spoken d.notes job.phase.wait?

variable {d d' : Desk} {log notes : List Note} {k : Kernel} {ws last : Workspace} {wait : Wait}

theorem Spoken.append {wait? : Option Wait} (h : Spoken log wait?) (notes : List Note) :
    Spoken (log ++ notes) wait? := by
  intro ticket waits
  have before := h ticket waits
  rw [Note.lastToggle?_append]
  cases lastToggle? notes with
  | none => exact before
  | some enabled => nofun

theorem spoken_none (log : List Note) : Spoken log none :=
  nofun

/-- A line that comes to wait for input says so. -/
theorem spoken_comes (log : List Note) (comes : Line.Comes ws notes wait last) :
    Spoken (log ++ notes) (some wait) := by
  intro ticket waits
  cases comes with
  | other _ other =>
    cases waits
    cases other
  | input =>
    rw [← List.append_assoc, Note.lastToggle?_snoc]
    simp [Message.toggle?]

theorem dealt_balanced {ws' : Workspace} (balanced : ws.Balanced log) (fair : Note.Fair log)
    (dealt : ws.Dealt notes ws') : ws'.Balanced (log ++ notes) ∧ Note.Fair (log ++ notes) := by
  induction dealt with
  | nil => simpa using ⟨balanced, fair⟩
  | snoc _ deals ih =>
    rw [← List.append_assoc]
    exact ⟨ih.1.deals deals, ih.1.fair ih.2 deals⟩

theorem Sound.next (h : d.Sound) (dealt : d.workspace.Dealt notes k.workspace)
    (numbered : k.Numbered) (flight : k.workspace.busy = k.inFlight)
    (lines : ∀ line ∈ k.lines, line ∈ d.kernel.lines ∨
      line.state.Converses ∧ Spoken (d.notes ++ notes) line.state.wait?)
    (jobs : ∀ job ∈ k.jobs, job ∈ d.kernel.jobs ∨
      job.Converses ∧ Spoken (d.notes ++ notes) job.phase.wait?) :
    (d.next notes k).Sound := by
  obtain ⟨balanced, fair⟩ := dealt_balanced h.balanced h.fair dealt
  refine ⟨numbered, flight, balanced, fair, ?_, ?_, ?_⟩
  · show d.drained ++ k.workspace.pending = (d.notes ++ notes).flatMap (·.said)
    rw [dealt.pending, ← List.append_assoc, h.told, List.flatMap_append]
  · intro line mem
    rcases lines line mem with old | new
    · exact ⟨(h.lines line old).1, (h.lines line old).2.append notes⟩
    · exact new
  · intro job mem
    rcases jobs job mem with old | new
    · exact ⟨(h.jobs job old).1, (h.jobs job old).2.append notes⟩
    · exact new

/-- Neither lines nor jobs go on. -/
theorem Sound.aside (h : d.Sound) (dealt : d.workspace.Dealt notes k.workspace)
    (busy : k.workspace.busy = d.workspace.busy) (lines : d.kernel.Undisturbed k)
    (jobs : ∀ job ∈ k.jobs, job ∈ d.kernel.jobs ∨ ∀ s, job.phase ≠ .waiting s) :
    (d.next notes k).Sound := by
  refine h.next dealt (lines.numbered h.numbered) ?_ ?_ ?_
  · rw [busy, h.flight, lines.flight]
  · intro line mem
    refine (lines.waits line mem).imp_right fun idle => ?_
    cases state : line.state with
    | suspended s => exact absurd state (idle s)
    | _ => exact ⟨trivial, spoken_none _⟩
  · intro job mem
    refine (jobs job mem).imp_right fun idle => ?_
    have none : job.phase.wait? = none := by
      cases phase : job.phase with
      | waiting s => exact absurd phase (idle s)
      | _ => rfl
    rw [none]
    exact ⟨Job.converses_of_wait?_eq_none none, spoken_none _⟩

/-- The host does something to lines that do not go on, and says nothing. -/
theorem Sound.quiet (h : d.Sound) (workspace : k.workspace = d.workspace)
    (jobs : k.jobs = d.kernel.jobs) (lines : d.kernel.Undisturbed k) :
    ({ d with kernel := k } : Desk).Sound := by
  have dealt : d.workspace.Dealt [] k.workspace := by
    rw [workspace]
    exact .nil
  have next := h.aside dealt (congrArg (·.busy) workspace) lines fun job mem => .inl (jobs ▸ mem)
  unfold Desk.next at next
  rwa [List.append_nil] at next

theorem inFlight_pos {id : Nat} {state : LineState} (found : k.line? id = some state)
    (flight : state.isInFlight = true) : 0 < k.inFlight := by
  obtain ⟨line, mem, -, rfl⟩ := Kernel.exists_line_of_line? found
  exact List.countP_pos_iff.mpr ⟨line, mem, flight⟩

/-- The request of a line that goes on is in flight. -/
theorem Sound.busy_pos (h : d.Sound) {id : Nat} {state : LineState} {run : Run Evaluation}
    (found : d.kernel.line? id = some state) (goesOn : state.run? d.workspace = some run) :
    0 < (state.here d.workspace).busy := by
  have before := LineState.busy_here goesOn
  cases inFlight : state.isInFlight with
  | false =>
    rw [inFlight, Bool.toNat_false] at before
    omega
  | true =>
    have others := inFlight_pos found inFlight
    have same := h.flight
    rw [inFlight, Bool.toNat_true] at before
    omega

theorem Sound.step_line (h : d.Sound) {id : Nat} {state : LineState} {run : Run Evaluation}
    (found : d.kernel.line? id = some state) (goesOn : state.run? d.workspace = some run)
    (advances : Line.Advances (state.here d.workspace) run notes) :
    (d.next (state.entry d.workspace ++ notes) (d.kernel.settleLine id run)).Sound := by
  have before := LineState.busy_here goesOn
  have flight := h.busy_pos found goesOn
  have workspace : (d.kernel.settleLine id run).workspace = run.left d.workspace :=
    Kernel.settleLine_workspace ..
  refine h.next ?_ ?_ ?_ ?_ ?_
  · rw [workspace]
    exact (LineState.dealt_entry goesOn).trans (advances.dealt flight)
  · rw [Kernel.Numbered, Kernel.settleLine_lines]
    exact Kernel.numbered_map h.numbered id _
  · -- The counter and the lines in flight change by the same, each told in its own way.
    have after := advances.busy d.workspace flight
    have count := Kernel.inFlight_settleLine h.numbered found run
    have same := h.flight
    rw [workspace]
    omega
  · intro line mem
    rcases Kernel.mem_settleLine mem with ⟨old, -⟩ | ⟨-, after⟩
    · exact .inl old
    · obtain ⟨old, hold, -, rfl⟩ := Kernel.exists_line_of_line? found
      obtain ⟨-, -, converses⟩ := (h.lines old hold).1.advances goesOn advances.lasts
      rw [after]
      refine .inr ⟨converses, ?_⟩
      cases advances with
      | waits comes =>
        rw [← List.append_assoc]
        exact spoken_comes _ comes
      | ends talks => exact spoken_none _
  · intro job mem
    rw [Kernel.settleLine_jobs] at mem
    exact .inl mem

/-- A line in flight is given up. -/
theorem Sound.step_discard (h : d.Sound) {id : Nat} {state : LineState} {s : Suspended Evaluation}
    (found : d.kernel.line? id = some state) (waits : state = .suspended s ∨ state = .cancelled s) :
    (d.next (s.wait.abandoned ++ [⟨some .settles, d.workspace.endNotice⟩])
      (d.kernel.discard id s.wait)).Sound := by
  have flies : state.isInFlight = true := by
    rcases waits with rfl | rfl <;> rfl
  have flight : 0 < d.workspace.busy := by
    rw [h.flight]
    exact inFlight_pos found flies
  have same := Kernel.callReady_same
    { d.kernel.removeLine id with workspace := (s.wait.abandon d.workspace).endRequest }
  have workspace : (d.kernel.discard id s.wait).workspace =
      (s.wait.abandon d.workspace).endRequest := same.workspace
  have lines : (d.kernel.discard id s.wait).lines = (d.kernel.removeLine id).lines := same.lines
  have busy := Wait.busy_abandon d.workspace s.wait
  have notice : d.workspace.endNotice = (s.wait.abandon d.workspace).endNotice := by
    rw [Workspace.endNotice, Workspace.endNotice, busy]
  refine h.next ?_ ?_ ?_ ?_ ?_
  · rw [workspace, notice]
    exact (s.wait.dealt_abandoned _).snoc (.settles (busy ▸ flight))
  · rw [Kernel.Numbered, lines]
    exact Kernel.numbered_filter h.numbered id
  · have count := Kernel.inFlight_removeLine h.numbered found
    have before := h.flight
    rw [flies, Bool.toNat_true] at count
    rw [workspace, Workspace.busy_endRequest, busy, Kernel.inFlight, lines]
    unfold Kernel.inFlight at count before
    omega
  · intro line mem
    rw [lines] at mem
    exact .inl (List.mem_of_mem_filter mem)
  · intro job mem
    exact .inl (same.jobs ▸ mem)

/-- A turn of a job that leaves requests alone. -/
theorem Sound.step_settleJob (h : d.Sound) {generation : Nat} {polled : Option Job × Workspace}
    (dealt : d.workspace.Dealt notes polled.2) (busy : polled.2.busy = d.workspace.busy)
    (left : ∀ job, polled.1 = some job →
      job.Converses ∧ Spoken (d.notes ++ notes) job.phase.wait?) :
    (d.next notes (d.kernel.settleJob generation polled)).Sound := by
  refine h.next dealt h.numbered (busy.trans h.flight) (fun line mem => .inl mem) ?_
  intro job mem
  rcases List.mem_append.mp mem with old | new
  · exact .inl (List.mem_of_mem_filter old)
  · exact .inr (left job (Option.mem_toList.mp new))

theorem Sound.step_job (h : d.Sound) {generation : Nat} {job : Job} {run : Run Ticked}
    (found : d.kernel.job? generation = some job) (goesOn : job.run? d.workspace = some run)
    (advances : job.Advances d.workspace (job.here d.workspace) run notes) :
    (d.next (job.entry d.workspace ++ notes)
      (d.kernel.settleJob generation (job.settle d.workspace run))).Sound := by
  refine h.step_settleJob ?_ ?_ ?_
  · exact (Job.dealt_entry goesOn).trans advances.dealt
  · exact advances.busy.trans (job.busy_here _)
  · intro job' left
    have mem : job ∈ d.kernel.jobs := List.mem_of_find?_eq_some found
    obtain ⟨-, -, converses⟩ := (h.jobs job mem).1.advances goesOn fun _ => advances.lasts
    refine ⟨converses job' left, ?_⟩
    cases advances with
    | waits comes =>
      cases left
      rw [← List.append_assoc]
      exact spoken_comes _ comes
    | ends talks =>
      rw [job.fresh_settle left]
      exact spoken_none _

/-- Neither lines nor jobs go on, and all that was there stays. -/
theorem Sound.step_aside (h : d.Sound) (apart : d.workspace.Apart [] k.workspace)
    (lines : k.lines = d.kernel.lines)
    (jobs : ∀ job ∈ k.jobs, job ∈ d.kernel.jobs ∨ ∀ s, job.phase ≠ .waiting s) :
    (d.next [⟨none, []⟩] k).Sound :=
  h.aside (.single (.apart apart)) apart.busy (.of_eq lines) jobs

/-- What happens by itself is what the workspace does with the notes. -/
theorem Sound.dealt_happens (h : d.Sound) (happens : d.kernel.Happens notes k) :
    d.workspace.Dealt notes k.workspace := by
  cases happens with
  | aside apart _ _ => exact .single (.apart apart)
  | line found goesOn advances =>
    rw [Kernel.settleLine_workspace]
    exact (LineState.dealt_entry goesOn).trans (advances.dealt (h.busy_pos found goesOn))
  | job _ goesOn advances => exact (Job.dealt_entry goesOn).trans advances.dealt
  | rest _ apart _ _ => exact .single (.apart apart)
  | receive =>
    rw [Kernel.receive_workspace]
    exact .single (.apart (.of_eq rfl rfl rfl rfl rfl))
  | beginRound =>
    rw [Kernel.beginRound_workspace]
    exact .single (.apart (.refl _))

theorem Sound.happens (h : d.Sound) (happens : d.kernel.Happens notes k) :
    (d.next notes k).Sound := by
  cases happens with
  | aside apart jobs lines => exact h.step_aside apart lines fun job mem => .inl (jobs ▸ mem)
  | line found goesOn advances => exact h.step_line found goesOn advances
  | job found goesOn advances => exact h.step_job found goesOn advances
  | rest found apart rests waits =>
    refine h.step_settleJob (.single (.apart apart)) apart.busy ?_
    rintro job' ⟨⟩
    have before := h.jobs _ (List.mem_of_find?_eq_some found)
    rw [waits]
    refine ⟨?_, before.2.append _⟩
    rcases rests.phase with same | idle
    · rw [Job.Converses, same]
      exact before.1
    · exact Job.converses_of_wait?_eq_none idle
  | receive =>
    obtain ⟨workspace, jobs, lines⟩ : Kernel.Same _ d.kernel.receive := Kernel.callReady_same _
    refine h.step_aside ?_ lines fun job mem => ?_
    · rw [workspace]
      exact .of_eq rfl rfl rfl rfl rfl
    · rw [jobs] at mem
      refine (List.mem_append.mp mem).imp_right fun new => ?_
      obtain ⟨i, -, rfl⟩ := List.mem_map.mp new
      exact nofun
  | beginRound =>
    obtain ⟨workspace, jobs, lines⟩ : Kernel.Same _ d.kernel.beginRound := Kernel.callReady_same _
    refine h.step_aside ?_ lines fun job mem => ?_
    · rw [workspace]
      exact .of_eq rfl rfl rfl rfl rfl
    · rw [jobs] at mem
      obtain ⟨old, hold, rfl⟩ := List.mem_map.mp mem
      unfold Job.rise
      split
      · exact .inr nofun
      · exact .inl hold

/-- Every step keeps the notes with the kernel. -/
theorem Sound.step (h : d.Sound) (step : d.Step d') : d'.Sound := by
  cases step with
  | happens happens => exact h.happens happens
  | host apart jobs lines =>
    exact h.aside (.single (.apart apart)) apart.busy lines fun job mem => .inl (jobs ▸ mem)
  | provideInput line =>
    obtain ⟨workspace, jobs, lines⟩ : Kernel.Same _ (d.kernel.provideInput line) :=
      Kernel.callReady_same _
    refine h.aside ?_ ?_ (.of_eq lines) fun job mem => .inl (jobs ▸ mem)
    · rw [workspace]
      exact .single (.provides line)
    · rw [workspace]
      rfl
  | drain =>
    refine ⟨h.numbered, h.flight, ⟨h.balanced.busy, h.balanced.idle, h.balanced.engaged⟩, h.fair,
      ?_, h.lines, h.jobs⟩
    show (d.drained ++ d.workspace.pending) ++ [] = _
    rw [List.append_nil, h.told]
    rfl
  | discard found waits => exact h.step_discard found waits
  | release found stale =>
    exact h.step_settleJob (Job.dealt_abandoned ..) (Job.busy_abandon ..) nofun
  | cancel found stale reads => exact h.step_settleJob (.single (.cancels _)) rfl nofun

/-! ## All that a host can do -/

end Desk

namespace Kernel

variable {k k' : Kernel}

/-- What a host does to a kernel, and what happens there by itself. A line gets a number that no
other line has, and it is taken out when it is over. -/
inductive Act (k : Kernel) : Kernel → Prop where
  | start {names : List String} {started : Workspace.Started} {k' : Kernel}
      (ok : k.start names = .ok (started, k')) : Act k k'
  | stop (target : StopTarget) : Act k (k.stop target).2
  | provideInput (line : String) : Act k (k.provideInput line)
  | drain : Act k k.drain.2
  | restock (store : Store) : Act k { k with workspace := { k.workspace with store } }
  | submit (text : String) (new : ∀ line ∈ k.lines, line.id ≠ k.nextLine) :
      Act k (k.submit text).2
  | spawn (text : String) (new : ∀ line ∈ k.lines, line.id ≠ k.nextLine) : Act k (k.spawn text).2
  | takeLine {id : Nat} (finished : Goal.isFinished k id = true) : Act k (k.takeLine id).2
  | dropLine (id : Nat) : Act k (k.dropLine id)
  | cancelLine (id : Nat) : Act k (k.cancelLine id)
  | proceed {k' : Kernel} (proceed : k.Proceed k') : Act k k'

theorem submit_undisturbed (text : String) (new : ∀ line ∈ k.lines, line.id ≠ k.nextLine) :
    k.Undisturbed (k.submit text).2 where
  flight := by
    show (k.lines ++ [_]).countP _ = _
    rw [List.countP_append]
    rfl
  numbered := by
    intro distinct
    show ((k.lines ++ [_]).map _).Nodup
    rw [List.map_append, List.nodup_append]
    refine ⟨distinct, List.nodup_singleton _, ?_⟩
    rintro id mem _ last rfl
    obtain ⟨line, here, rfl⟩ := List.mem_map.mp mem
    exact new line here (List.mem_singleton.mp last)
  waits := by
    intro line mem
    refine (List.mem_append.mp mem).imp_right fun last => ?_
    rw [List.mem_singleton.mp last]
    exact nofun

theorem takeLine_snd (k : Kernel) (id : Nat) : (k.takeLine id).2 = k.removeLine id := by
  unfold takeLine
  split <;> rfl

theorem removeLine_undisturbed (distinct : k.Numbered) {id : Nat}
    (idle : ∀ state, k.line? id = some state → state.isInFlight = false) :
    k.Undisturbed (k.removeLine id) where
  flight := by
    cases found : k.line? id with
    | some state =>
      have count := inFlight_removeLine distinct found
      rwa [idle state found] at count
    | none =>
      have absent : id ∉ k.lines.map (·.id) := by
        intro mem
        obtain ⟨line, here, rfl⟩ := List.mem_map.mp mem
        have missing := List.find?_eq_none.mp (Option.map_eq_none_iff.mp found) line here
        simp at missing
      show (k.lines.filter _).countP _ = _
      rw [filter_of_new absent]
      rfl
  numbered distinct := numbered_filter distinct id
  waits _ mem := .inl (List.mem_of_mem_filter mem)

theorem Undisturbed.congr {k'' : Kernel} (h : k.Undisturbed k') (lines : k''.lines = k'.lines) :
    k.Undisturbed k'' where
  flight := by
    rw [← h.flight, inFlight, inFlight, lines]
  numbered distinct := by
    rw [Numbered, lines]
    exact h.numbered distinct
  waits line mem := h.waits line (lines ▸ mem)

/-- To give a line up with its next turn is not to end its request. -/
theorem cancelled_undisturbed (distinct : k.Numbered) {id : Nat} {s : Suspended Evaluation}
    (found : k.line? id = some (.suspended s)) :
    k.Undisturbed (k.setLine id (.cancelled s) k.workspace) where
  flight := by
    obtain ⟨line, first, same⟩ := Option.map_eq_some_iff.mp found
    have count := countP_map LineState.isInFlight (.cancelled s) distinct first
    rw [same] at count
    rw [inFlight, setLine, (moveBack_same _ _).lines]
    exact Nat.add_right_cancel count
  numbered distinct := by
    rw [Numbered, setLine, (moveBack_same _ _).lines]
    exact numbered_map distinct id _
  waits := (k.cancelled_linesRest id s).waits

end Kernel

namespace Desk

variable {d : Desk} {k k' : Kernel}

/-- A step of the desk that leads to this kernel. -/
def Leads (d : Desk) (k : Kernel) : Prop :=
  ∃ d', d.Step d' ∧ d'.kernel = k

theorem Leads.host {said : List Message} (same : k.Same k')
    (apart : d.workspace.Apart said k.workspace) (jobs : k.jobs = d.kernel.jobs)
    (lines : d.kernel.Undisturbed k) : d.Leads k' := by
  rw [← same.workspace] at apart
  exact ⟨_, .host apart (same.jobs.trans jobs) (lines.congr same.lines), rfl⟩

theorem same_refl (k : Kernel) : k.Same k :=
  ⟨rfl, rfl, rfl⟩

theorem Sound.leads_removeLine (h : d.Sound) {id : Nat}
    (idle : ∀ state, d.kernel.line? id = some state → state.isInFlight = false) :
    d.Leads (d.kernel.removeLine id) :=
  .host (same_refl _) (.refl _) rfl (Kernel.removeLine_undisturbed h.numbered idle)

theorem Sound.leads_dropLine (h : d.Sound) (id : Nat) : d.Leads (d.kernel.dropLine id) := by
  unfold Kernel.dropLine
  split
  · rename_i s found
    exact ⟨_, .discard found (.inl rfl), rfl⟩
  · rename_i s found
    exact ⟨_, .discard found (.inr rfl), rfl⟩
  · rename_i suspended cancelled
    refine h.leads_removeLine fun state found => ?_
    cases state with
    | suspended s => exact absurd found (suspended s)
    | cancelled s => exact absurd found (cancelled s)
    | _ => rfl

theorem Sound.leads_cancelLine (h : d.Sound) (id : Nat) : d.Leads (d.kernel.cancelLine id) := by
  unfold Kernel.cancelLine
  split
  · rename_i s found
    have apart : d.workspace.Apart []
        (d.kernel.setLine id (.cancelled s) d.kernel.workspace).workspace := by
      rw [Kernel.setLine, (Kernel.moveBack_same _ _).workspace]
      exact .refl _
    exact .host (Kernel.callReady_same _) apart (Kernel.moveBack_same _ _).jobs
      (Kernel.cancelled_undisturbed h.numbered found)
  · exact h.leads_dropLine id

/-- A turn of a line that was not given up. -/
theorem Sound.happens_pollLine (h : d.Sound) {id : Nat}
    (kept : ∀ s, d.kernel.line? id ≠ some (.cancelled s))
    (survives : (d.kernel.pollLine id).Survives) :
    ∃ notes, d.kernel.Happens notes (d.kernel.pollLine id) := by
  have nothing : ∃ notes, d.kernel.Happens notes d.kernel := ⟨_, .aside (.refl _) rfl rfl⟩
  cases found : d.kernel.line? id with
  | none => simpa only [Kernel.pollLine, found] using nothing
  | some state =>
    obtain ⟨line, mem, named, same⟩ := Kernel.exists_line_of_line? found
    cases goesOn : state.run? d.kernel.workspace with
    | some run =>
      rw [Kernel.pollLine_of_run? found goesOn] at survives ⊢
      have ends : (LineState.after run).isLost = false := by
        have settled : ({ line with state := .after run } : OpenLine) ∈
            (d.kernel.settleLine id run).lines := by
          rw [Kernel.settleLine_lines]
          exact List.mem_map.mpr ⟨line, mem, if_pos named⟩
        exact survives.lines _ settled
      have converses := (h.lines line mem).1
      rw [same] at converses
      obtain ⟨notes, advances, -⟩ := converses.advances goesOn ends
      exact ⟨_, .line found goesOn advances⟩
    | none =>
      unfold Kernel.pollLine
      rw [found]
      cases state with
      | unstarted text => cases goesOn
      | suspended s =>
        simp only [LineState.run?] at goesOn
        split at goesOn
        · cases goesOn
        · rename_i waits
          simp only [waits]
          exact ⟨_, .aside (.remain _ s.wait) rfl rfl⟩
      | cancelled s => exact absurd found (kept s)
      | finished evaluation => exact nothing
      | lost => exact nothing

theorem Sound.leads_pollLine (h : d.Sound) {id : Nat} (survives : (d.kernel.pollLine id).Survives) :
    d.Leads (d.kernel.pollLine id) := by
  by_cases given : ∃ s, d.kernel.line? id = some (.cancelled s)
  · obtain ⟨s, found⟩ := given
    simp only [Kernel.pollLine, found]
    exact ⟨_, .discard found (.inr rfl), rfl⟩
  · obtain ⟨notes, happens⟩ := h.happens_pollLine (fun s found => given ⟨s, found⟩) survives
    exact ⟨_, .happens happens, rfl⟩

/-- A turn of a job: it happens by itself, unless the job is let go because its instance was
stopped. -/
theorem Sound.pollJob_cases (h : d.Sound) {generation : Nat}
    (survives : (d.kernel.pollJob generation).Survives) :
    (∃ notes, d.kernel.Happens notes (d.kernel.pollJob generation)) ∨
      ∃ job, d.kernel.job? generation = some job ∧ job.isStale d.workspace = true ∧
        d.kernel.pollJob generation =
          d.kernel.settleJob generation (none, job.abandon d.workspace) := by
  cases found : d.kernel.job? generation with
  | none =>
    simp only [Kernel.pollJob, found]
    exact .inl ⟨_, .aside (.refl _) rfl rfl⟩
  | some job =>
    cases goesOn : job.run? d.kernel.workspace with
    | some run =>
      rw [Kernel.pollJob_of_run? found goesOn] at survives ⊢
      have ends : ∀ job', (job.settle d.workspace run).1 = some job' →
          job'.phase.isLost = false := by
        intro job' left
        have mem : job' ∈ (d.kernel.settleJob generation (job.settle d.workspace run)).jobs :=
          List.mem_append_right _ (Option.mem_toList.mpr left)
        have none := List.any_eq_false.mp survives.jobs job' mem
        simpa using none
      have mem : job ∈ d.kernel.jobs := List.mem_of_find?_eq_some found
      obtain ⟨notes, advances, -⟩ := (h.jobs job mem).1.advances goesOn ends
      exact .inl ⟨_, .job found goesOn advances⟩
    | none =>
      rcases Job.poll_cases goesOn with ⟨stale, gone⟩ | ⟨job', ws', polled, rests, waits, same⟩
      · simp only [Kernel.pollJob, found, gone]
        exact .inr ⟨job, rfl, stale, rfl⟩
      · simp only [Kernel.pollJob, found, polled]
        have apart : d.workspace.Apart [] ws' := by
          rcases same with rfl | ⟨wait, rfl⟩
          · exact .refl _
          · exact .remain _ wait
        exact .inl ⟨_, .rest found apart rests waits⟩

theorem Sound.leads_pollJob (h : d.Sound) {generation : Nat}
    (survives : (d.kernel.pollJob generation).Survives) :
    d.Leads (d.kernel.pollJob generation) := by
  rcases h.pollJob_cases survives with ⟨notes, happens⟩ | ⟨job, found, stale, gone⟩
  · exact ⟨_, .happens happens, rfl⟩
  · rw [gone]
    exact ⟨_, .release found stale, rfl⟩

/-- What happens by itself leaves notes. -/
theorem Sound.happens_proceed (h : d.Sound) (proceed : d.kernel.Proceed k)
    (kept : ∀ id s, d.kernel.line? id ≠ some (.cancelled s))
    (current : ∀ job ∈ d.kernel.jobs, job.isStale d.workspace = false) (survives : k.Survives) :
    ∃ notes, d.kernel.Happens notes k := by
  cases proceed with
  | pollLine id => exact h.happens_pollLine (kept id) survives
  | receive => exact ⟨_, .receive⟩
  | pollJob generation =>
    rcases h.pollJob_cases survives with happens | ⟨job, found, stale, -⟩
    · exact happens
    · exact absurd stale (Bool.eq_false_iff.mp (current job (List.mem_of_find?_eq_some found)))
  | beginRound => exact ⟨_, .beginRound⟩
  | passTo time =>
    have same := d.kernel.passTo_same time
    refine ⟨_, .aside ?_ same.jobs same.lines⟩
    rw [same.workspace]
    exact .of_eq rfl rfl rfl rfl rfl
  | reorder same =>
    refine ⟨_, .aside ?_ same.jobs same.lines⟩
    rw [same.workspace]
    exact .refl _

/-- All that a host can do, and all that happens by itself, can be written down. -/
theorem Sound.exists_step (h : d.Sound) (act : d.kernel.Act k) (survives : k.Survives) :
    d.Leads k := by
  cases act with
  | start ok =>
    unfold Kernel.start at ok
    split at ok
    · rename_i started ws ok'
      cases ok
      exact .host (Kernel.callReady_same _) (.startBatch ok') rfl (.of_eq rfl)
    · cases ok
  | stop target => exact .host (Kernel.callReady_same _) (.stop _ target) rfl (.of_eq rfl)
  | provideInput line => exact ⟨_, .provideInput line, rfl⟩
  | drain => exact ⟨_, .drain, rfl⟩
  | restock store => exact .host (same_refl _) (.of_eq rfl rfl rfl rfl rfl) rfl (.of_eq rfl)
  | submit text new =>
    exact .host (same_refl _) (.refl _) rfl (Kernel.submit_undisturbed text new)
  | spawn text new =>
    exact .host (Kernel.callReady_same _) (.refl _) rfl
      ((Kernel.submit_undisturbed text new).congr rfl)
  | @takeLine id finished =>
    rw [Kernel.takeLine_snd]
    refine h.leads_removeLine fun state found => ?_
    unfold Goal.isFinished at finished
    rw [found] at finished
    cases state with
    | finished evaluation => rfl
    | _ => cases finished
  | dropLine id => exact h.leads_dropLine id
  | cancelLine id => exact h.leads_cancelLine id
  | proceed proceed =>
    cases proceed with
    | pollLine id => exact h.leads_pollLine survives
    | receive => exact ⟨_, .happens .receive, rfl⟩
    | pollJob generation => exact h.leads_pollJob survives
    | beginRound => exact ⟨_, .happens .beginRound, rfl⟩
    | passTo time =>
      exact .host (Kernel.callReady_same _) (.of_eq rfl rfl rfl rfl rfl) rfl (.of_eq rfl)
    | reorder same =>
      exact .host same (.refl _) rfl (.of_eq rfl)

theorem of_sound (blank : k.Blank) : (of k).Sound where
  numbered := by
    show (k.lines.map _).Nodup
    rw [blank.lines]
    exact List.nodup_nil
  flight := by
    show k.workspace.busy = k.lines.countP _
    rw [blank.busy, blank.lines]
    rfl
  balanced := Workspace.balanced_nil blank.busy
  fair := Note.fair_nil
  told := blank.pending
  lines := by
    intro line mem
    rw [show (of k).kernel.lines = [] from blank.lines] at mem
    cases mem
  jobs := by
    intro job mem
    rw [show (of k).kernel.jobs = [] from blank.jobs] at mem
    cases mem

theorem Steps.sound (steps : d.Steps d') (h : d.Sound) : d'.Sound := by
  induction steps with
  | refl => exact h
  | tail _ step ih => exact ih.step step

/-- Acts of a host, none of which takes the program with it. -/
abbrev Acts : Kernel → Kernel → Prop :=
  Relation.ReflTransGen fun k k' => k.Act k' ∧ k'.Survives

theorem exists_steps (blank : k.Blank) (acts : Acts k k') :
    ∃ d, (of k).Steps d ∧ d.Sound ∧ d.kernel = k' := by
  induction acts with
  | refl => exact ⟨_, .refl, of_sound blank, rfl⟩
  | tail _ act ih =>
    obtain ⟨d, steps, sound, rfl⟩ := ih
    obtain ⟨d', step, same⟩ := sound.exists_step act.1 act.2
    exact ⟨d', steps.tail step, sound.step step, same⟩

/-- What was said last about input, if that was not drained. -/
theorem Sound.lastToggle?_of_pending (h : d.Sound) {enabled : Bool}
    (last : (d.workspace.pending.filterMap Message.toggle?).getLast? = some enabled) :
    lastToggle? d.notes = some enabled := by
  rw [lastToggle?, Note.toggles, ← h.told, List.filterMap_append, List.getLast?_append, last,
    Option.some_or]

end Desk

end LineScript
