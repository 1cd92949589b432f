import LineScript.Proofs.Input.Tended
import LineScript.Session

/-!
# Sessions keep in step with reads

A session that looks after a line counts the reads it has served, and asks for a line of input for
each read that has started. Between any two of its steps, and within its rounds, the kernel may do
anything that it does by itself. `Service` is a session in the middle of this, with notes of what
has happened to reads.

* `Service.Step` has the single steps of a session, and what the kernel does in between.
* `Service.InStep` is what holds after any number of steps. When the line is over there is no script
  and no read left, so as many reads have been answered as have started (`InStep.caught_up`).
* The runs of a session are among these (`InStep.run_steps`).
-/

namespace LineScript

open Note (asked delivered provided)

/-- Where a session is with its line. -/
inductive Attention where
  /-- No line is running. -/
  | idle
  /-- It is about to look whether the line is over. -/
  | looks (id : Nat)
  /-- It has looked, and is about to show what was said. -/
  | shows (id : Nat) (isOver : Bool)
  /-- It compares the reads that it has served with those that have started. -/
  | serves (id : Nat)
  /-- It has counted a read as served, and asks for a line of input. -/
  | asks (id : Nat)
  /-- The line is over, and its outcome is about to be taken. -/
  | closes (id : Nat)

namespace Attention

def line? : Attention → Option Nat
  | .idle => none
  | .looks id => some id
  | .shows id _ => some id
  | .serves id => some id
  | .asks id => some id
  | .closes id => some id

/-- It has seen that the line is over. -/
def hasSeenEnd : Attention → Bool
  | .shows _ isOver => isOver
  | .closes _ => true
  | _ => false

/-- How many lines of input it owes to reads that it has counted as served. -/
def owed : Attention → Nat
  | .asks _ => 1
  | _ => 0

end Attention

structure Service where
  session : Session
  attention : Attention := .idle
  /-- What has happened to requests and reads, in order. -/
  notes : List Note := []
  /-- What the session has taken from the bus, in order. -/
  drained : List Message := []
  /-- How often the session has asked for a line of input. -/
  calls : Nat := 0
  /-- What it was given, in order. -/
  answers : List String := []

namespace Service

def kernel (v : Service) : Kernel :=
  v.session.kernel

def workspace (v : Service) : Workspace :=
  v.session.kernel.workspace

def desk (v : Service) : Desk where
  kernel := v.kernel
  notes := v.notes
  drained := v.drained

/-- Nothing has happened yet. -/
def of (s : Session) : Service where
  session := s

/-! ### Steps of a session -/

def submit (v : Service) (text : String) : Service :=
  { v with
    session := (v.session.submit text).2
    attention := .looks (v.session.submit text).1 }

/-- The kernel has done something. -/
def next (v : Service) (notes : List Note) (k : Kernel) : Service :=
  { v with session := { v.session with kernel := k }, notes := v.notes ++ notes }

/-- Look whether the line is over. -/
def look (v : Service) (id : Nat) : Service :=
  { v with attention := .shows id (Goal.isFinished v.kernel id) }

/-- Show what was said. -/
def flush (v : Service) (id : Nat) (isOver : Bool) : Service :=
  { v with
    session := v.session.flush.2
    drained := v.drained ++ v.kernel.drain.1
    attention := if isOver then .closes id else .serves id }

/-- Count a read as served, and ask for a line of input. -/
def call (v : Service) (id : Nat) : Service :=
  { v with
    session := { v.session with served := v.session.served + 1 }
    calls := v.calls + 1
    attention := .asks id }

/-- Pass on the line that was asked for. -/
def answer (v : Service) (id : Nat) (line : String) : Service :=
  { v with
    session := { v.session with kernel := v.kernel.provideInput line }
    notes := v.notes ++ [⟨some (.provides line), []⟩]
    answers := v.answers ++ [line]
    attention := .serves id }

/-- Begin another round. -/
def pause (v : Service) (id : Nat) : Service :=
  { v with attention := .looks id }

/-- Take the outcome of the line, and count all reads as served. -/
def close (v : Service) (id : Nat) : Service :=
  { v with
    session := { v.session with
      kernel := (v.kernel.takeLine id).2
      served := (v.kernel.takeLine id).2.workspace.requests }
    attention := .idle }

/-- One step of a session, or something that the kernel does by itself. -/
inductive Step (v : Service) : Service → Prop where
  | submit (text : String) (idle : v.attention = .idle) : Step v (v.submit text)
  | proceed {notes : List Note} {k : Kernel} (proceed : v.kernel.Proceed k)
      (happens : v.kernel.Happens notes k) : Step v (v.next notes k)
  | look {id : Nat} (looks : v.attention = .looks id) : Step v (v.look id)
  | flush {id : Nat} {isOver : Bool} (shows : v.attention = .shows id isOver) :
      Step v (v.flush id isOver)
  | call {id : Nat} (serves : v.attention = .serves id)
      (behind : v.session.served < v.workspace.requests) : Step v (v.call id)
  | answer {id : Nat} (asks : v.attention = .asks id) (line : String) : Step v (v.answer id line)
  | pause {id : Nat} (serves : v.attention = .serves id)
      (even : v.workspace.requests ≤ v.session.served) : Step v (v.pause id)
  | close {id : Nat} (closes : v.attention = .closes id) : Step v (v.close id)

/-- Any number of steps. -/
abbrev Steps : Service → Service → Prop :=
  Relation.ReflTransGen Step

/-- The session and the kernel are in step. -/
structure InStep (v : Service) : Prop where
  sound : v.desk.Sound
  order : v.workspace.InOrder v.notes
  tended : v.kernel.Tended
  held : v.kernel.Held
  /-- There is one line at most. -/
  lines : v.kernel.lines.map (·.id) = v.attention.line?.toList
  done : v.attention.hasSeenEnd = true → v.kernel.LinesDone
  provided : provided v.notes = v.answers
  calls : v.calls = v.session.served
  served : v.session.served = v.answers.length + v.attention.owed
  le : v.session.served ≤ v.workspace.requests

variable {v v' : Service} {notes : List Note} {k : Kernel}

theorem of_inStep {s : Session} (fresh : s.kernel.Fresh) (blank : s.kernel.Blank)
    (new : s.served = 0) : (of s).InStep where
  sound := Desk.of_sound blank
  order := Workspace.inOrder_nil blank.requests blank.inputs blank.readers
  tended := fresh.tended
  held := .of_nil blank.readers
  lines := by
    show s.kernel.lines.map _ = []
    rw [blank.lines]
    rfl
  done := nofun
  provided := rfl
  calls := new.symm
  served := new
  le := by
    show s.served ≤ _
    rw [new]
    exact Nat.zero_le _

/-! ## When the line is over -/

/-- When the line is over, all reads have been answered, and no answer is left. -/
theorem InStep.caught_up (h : v.InStep) (done : v.kernel.LinesDone) :
    v.kernel.jobs = [] ∧ v.workspace.readers = [] ∧ v.workspace.inputs = [] ∧
      v.session.served = v.workspace.requests ∧
      (delivered v.notes).length = v.workspace.requests := by
  have readers : v.workspace.readers = [] := h.tended.readers_nil h.held done
  have none : (delivered v.notes).length = v.workspace.requests := by
    have left := congrArg List.length (h.order.readers.symm.trans readers)
    rw [List.length_range', List.length_nil] at left
    have le := h.order.le
    omega
  -- Each answer has gone to a read, so there are no more answers than reads.
  have answers := congrArg List.length (h.provided.symm.trans h.order.answers)
  rw [List.length_append, List.length_map] at answers
  have served := h.served
  have le := h.le
  have inputs : v.workspace.inputs.length = 0 := by omega
  exact ⟨h.tended.jobs_nil done, readers, List.length_eq_zero_iff.mp inputs, by omega, none⟩

/-! ## Steps -/

theorem linesDone_of_isFinished {id : Nat} (lines : k.lines.map (·.id) = [id])
    (finished : Goal.isFinished k id = true) : k.LinesDone := by
  intro line mem
  have named : line.id = id := by
    have listed : line.id ∈ k.lines.map (·.id) := List.mem_map_of_mem mem
    rw [lines] at listed
    exact List.mem_singleton.mp listed
  have numbered : k.Numbered := by
    rw [Kernel.Numbered, lines]
    exact List.nodup_singleton id
  unfold Goal.isFinished at finished
  rw [← named, Kernel.line?_of_mem numbered mem] at finished
  cases state : line.state with
  | finished evaluation => exact ⟨evaluation, rfl⟩
  | _ => rw [state] at finished; cases finished

theorem InStep.lines_nil (h : v.InStep) (idle : v.attention = .idle) : v.kernel.lines = [] := by
  have lines := h.lines
  rw [idle] at lines
  exact List.map_eq_nil_iff.mp lines

theorem InStep.submit (h : v.InStep) (text : String) (idle : v.attention = .idle) :
    (v.submit text).InStep := by
  have none := h.lines_nil idle
  have readers := (h.caught_up (.of_nil none)).2.1
  have served := h.served
  rw [idle] at served
  refine ⟨?_, h.order, h.tended.turn (.submit text) fun _ => rfl, .of_nil readers, ?_, nofun,
    h.provided, h.calls, served, h.le⟩
  · refine h.sound.quiet rfl rfl (Kernel.submit_undisturbed text fun line mem => ?_)
    rw [show v.desk.kernel.lines = [] from none] at mem
    cases mem
  · show (v.kernel.lines ++ [_]).map _ = _
    rw [none]
    rfl

theorem InStep.proceed (h : v.InStep) (proceed : v.kernel.Proceed k)
    (happens : v.kernel.Happens notes k) : (v.next notes k).InStep := by
  have order := h.order.dealt (h.sound.dealt_happens happens) happens.inner.lossless
  refine ⟨h.sound.happens happens, order, h.tended.proceed proceed, h.held.happens happens, ?_, ?_,
    ?_, h.calls, h.served, ?_⟩
  · exact (h.tended.proceed_ids proceed).trans h.lines
  · exact fun seen => (h.done seen).happens happens
  · show Note.provided (v.notes ++ notes) = v.answers
    rw [Note.provided_append, happens.inner.provided_eq_nil, List.append_nil, h.provided]
  · exact h.le.trans (h.order.requests_le order)

theorem InStep.look (h : v.InStep) {id : Nat} (looks : v.attention = .looks id) :
    (v.look id).InStep := by
  have lines := h.lines
  have served := h.served
  rw [looks] at lines served
  exact ⟨h.sound, h.order, h.tended, h.held, lines, linesDone_of_isFinished lines, h.provided,
    h.calls, served, h.le⟩

theorem InStep.flush (h : v.InStep) {id : Nat} {isOver : Bool}
    (shows : v.attention = .shows id isOver) : (v.flush id isOver).InStep := by
  have lines := h.lines
  have served := h.served
  have done := h.done
  rw [shows] at lines served done
  have order : v.kernel.drain.2.workspace.InOrder v.notes :=
    ⟨h.order.asked, h.order.tickets, h.order.le, h.order.readers, h.order.answers⟩
  refine ⟨h.sound.step .drain, order, h.tended.turn .drain fun _ => rfl, ?_, ?_, ?_, h.provided,
    h.calls, ?_, h.le⟩
  · exact h.held.of_waits rfl fun _ _ waits => waits
  · refine Eq.trans lines ?_
    cases isOver <;> rfl
  · intro seen
    cases isOver with
    | true => exact done rfl
    | false => cases seen
  · refine served.trans ?_
    cases isOver <;> rfl

theorem InStep.call (h : v.InStep) {id : Nat} (serves : v.attention = .serves id)
    (behind : v.session.served < v.workspace.requests) : (v.call id).InStep := by
  have lines := h.lines
  have served := h.served
  rw [serves] at lines served
  exact ⟨h.sound, h.order, h.tended, h.held, lines, nofun, h.provided, congrArg (· + 1) h.calls,
    congrArg (· + 1) served, behind⟩

theorem InStep.answer (h : v.InStep) {id : Nat} (asks : v.attention = .asks id) (line : String) :
    (v.answer id line).InStep := by
  have attended := h.lines
  have served := h.served
  rw [asks] at attended served
  obtain ⟨workspace, jobs, lines⟩ : Kernel.Same _ (v.kernel.provideInput line) :=
    Kernel.callReady_same _
  have requests : (v.kernel.provideInput line).workspace.requests = v.workspace.requests := by
    rw [workspace]
    rfl
  refine ⟨h.sound.step (.provideInput line), ?_, ?_, ?_, ?_, nofun, ?_, h.calls, ?_, ?_⟩
  · show (v.kernel.provideInput line).workspace.InOrder _
    rw [workspace]
    exact h.order.provides line
  · exact h.tended.turn (.provideInput line) fun _ => congrArg (·.scheduler) workspace
  · refine h.held.of_waits (congrArg (·.readers) workspace) fun party wait waits => ?_
    exact (Kernel.wait?_congr jobs lines party).trans waits
  · exact (congrArg _ lines).trans attended
  · show Note.provided (v.notes ++ [_]) = v.answers ++ [line]
    rw [Note.provided_snoc, h.provided]
    rfl
  · show v.session.served = (v.answers ++ [line]).length + 0
    rw [served, List.length_append]
    rfl
  · show v.session.served ≤ (v.kernel.provideInput line).workspace.requests
    rw [requests]
    exact h.le

theorem InStep.pause (h : v.InStep) {id : Nat} (serves : v.attention = .serves id) :
    (v.pause id).InStep := by
  have lines := h.lines
  have served := h.served
  rw [serves] at lines served
  exact ⟨h.sound, h.order, h.tended, h.held, lines, nofun, h.provided, h.calls, served, h.le⟩

theorem InStep.close (h : v.InStep) {id : Nat} (closes : v.attention = .closes id) :
    (v.close id).InStep := by
  have lines := h.lines
  have served := h.served
  have done := h.done
  rw [closes] at lines served done
  obtain ⟨-, readers, -, caught, -⟩ := h.caught_up (done rfl)
  obtain ⟨line, single, rfl⟩ := List.map_eq_singleton_iff.mp lines
  have mem : line ∈ v.kernel.lines := single ▸ List.mem_singleton_self line
  obtain ⟨evaluation, finished⟩ := done rfl line mem
  have found : v.kernel.line? line.id = some (.finished evaluation) := by
    rw [← finished]
    exact Kernel.line?_of_mem h.sound.numbered mem
  have taken : (v.close line.id).kernel = v.kernel.removeLine line.id :=
    v.kernel.takeLine_snd line.id
  have workspace : (v.close line.id).workspace = v.workspace := congrArg (·.workspace) taken
  have count : (v.close line.id).session.served = v.workspace.requests :=
    congrArg (·.requests) workspace
  refine ⟨?_, ?_, ?_, ?_, ?_, nofun, h.provided, ?_, ?_, le_of_eq rfl⟩
  · have idle : ∀ state, v.kernel.line? line.id = some state → state.isInFlight = false := by
      intro state same
      rw [found] at same
      cases same
      rfl
    refine h.sound.quiet workspace (congrArg (·.jobs) taken) ?_
    show v.kernel.Undisturbed (v.close line.id).kernel
    rw [taken]
    exact Kernel.removeLine_undisturbed h.sound.numbered idle
  · rw [workspace]
    exact h.order
  · exact h.tended.turn (.takeLine found) fun _ => congrArg (·.scheduler) workspace
  · exact .of_nil ((congrArg (·.readers) workspace).trans readers)
  · show _ = []
    rw [taken, Kernel.removeLine, single]
    simp
  · rw [count, ← caught]
    exact h.calls
  · rw [count, ← caught]
    exact served

/-- The session and the kernel keep in step. -/
theorem InStep.step (h : v.InStep) (step : v.Step v') : v'.InStep := by
  cases step with
  | submit text idle => exact h.submit text idle
  | proceed proceed happens => exact h.proceed proceed happens
  | look looks => exact h.look looks
  | flush shows => exact h.flush shows
  | call serves behind => exact h.call serves behind
  | answer asks line => exact h.answer asks line
  | pause serves _ => exact h.pause serves
  | close closes => exact h.close closes

theorem InStep.steps (h : v.InStep) (steps : v.Steps v') : v'.InStep := by
  induction steps with
  | refl => exact h
  | tail _ step ih => exact ih.step step

/-- What the kernel does by itself is a step, unless lines are nested without end. -/
theorem InStep.exists_happens (h : v.InStep) (proceed : v.kernel.Proceed k)
    (survives : k.Survives) : ∃ notes, v.kernel.Happens notes k := by
  obtain ⟨begun, attended⟩ := h.tended.attended
  refine h.sound.happens_proceed proceed h.tended.not_cancelled ?_ survives
  intro job mem
  have current : v.workspace.isCurrent job.inst = true := attended.current mem
  show (!v.workspace.isCurrent job.inst) = false
  rw [current]
  rfl

/-- The n-th answer goes to the n-th read that has started, to no other, and only once. -/
theorem InStep.deliveries (h : v.InStep) :
    delivered v.notes <+: (asked v.notes).zip v.answers := by
  have le := h.order.le
  have zipped : ((delivered v.notes).map Prod.fst).zip ((delivered v.notes).map Prod.snd) =
      delivered v.notes := by
    rw [List.zip_map', List.map_id']
  -- The reads that have been answered come first.
  have reads : asked v.notes = (delivered v.notes).map Prod.fst ++
      List.range' (delivered v.notes).length
        (v.workspace.requests - (delivered v.notes).length) := by
    have split : List.range' 0 (delivered v.notes).length ++
        List.range' (0 + (delivered v.notes).length)
          (v.workspace.requests - (delivered v.notes).length) = _ := List.range'_append_1
    rw [Nat.zero_add, Nat.add_sub_cancel' le] at split
    rw [h.order.asked, h.order.tickets, List.range_eq_range', List.range_eq_range', split]
  rw [reads, ← h.provided, h.order.answers, List.zip_append (by simp), zipped]
  exact List.prefix_append ..

end Service

/-! ## Runs of sessions -/

namespace Session

/-- The line is over before the looks at it are used up. -/
def finishes (rounds id : Nat) : Nat → Session → List String → Bool
  | 0, _, _ => false
  | polls + 1, s, lines =>
    match s.poll rounds id with
    | (.finished _, _, _) => true
    | (.asks count, _, s) =>
      let answered := s.answerFrom count lines
      finishes rounds id polls answered.2 answered.1

/-- What a look comes to. -/
theorem poll_cases (rounds : Nat) (s : Session) (id : Nat) :
    ∃ k, s.kernel.Proceeds k ∧
      ((∃ evaluation output, k.line? id = some (.finished evaluation) ∧
        s.poll rounds id = (.finished evaluation, output,
          { s with kernel := (k.removeLine id).drain.2, served := k.workspace.requests })) ∨
      ((∀ evaluation, k.line? id ≠ some (.finished evaluation)) ∧
        ∃ output, s.poll rounds id = (.asks (k.workspace.requests - s.served), output,
          { s with kernel := k.drain.2 }))) := by
  have proceeds := Kernel.await_proceeds (.line id) (s.kernel.workspace.now + interval) rounds
    s.kernel
  unfold poll
  dsimp only
  generalize (s.kernel.await (.line id) (s.kernel.workspace.now + interval) rounds).2 = k
    at proceeds ⊢
  refine ⟨k, proceeds, ?_⟩
  by_cases ended : ∃ evaluation, k.line? id = some (.finished evaluation)
  · obtain ⟨evaluation, found⟩ := ended
    have taken : k.takeLine id = (some evaluation, k.removeLine id) := by
      unfold Kernel.takeLine
      rw [found]
    rw [taken]
    exact .inl ⟨evaluation, _, found, rfl⟩
  · push Not at ended
    have taken : k.takeLine id = (none, k.removeLine id) := by
      unfold Kernel.takeLine
      split
      · rename_i evaluation found
        exact absurd found (ended evaluation)
      · rfl
    rw [taken]
    exact .inr ⟨ended, _, rfl⟩

/-- Answers change neither scripts nor lines. -/
theorem answerFrom_same (s : Session) (count : Nat) (lines : List String)
    (tended : s.kernel.Tended) :
    (s.answerFrom count lines).2.kernel.Tended ∧
      (s.answerFrom count lines).2.kernel.jobs = s.kernel.jobs ∧
      (s.answerFrom count lines).2.kernel.lines = s.kernel.lines := by
  induction count generalizing s lines with
  | zero => exact ⟨tended, rfl, rfl⟩
  | succ count ih =>
    obtain ⟨workspace, jobs, same⟩ : Kernel.Same _ (s.kernel.provideInput (lines.headD "")) :=
      Kernel.callReady_same _
    have answered : (s.answer (lines.headD "")).kernel.Tended :=
      tended.turn (.provideInput _) fun _ => congrArg (·.scheduler) workspace
    obtain ⟨tended', jobs', lines'⟩ := ih (s.answer (lines.headD "")) lines.tail answered
    exact ⟨tended', jobs'.trans jobs, lines'.trans same⟩

/-- What a look and the answers after it leave as it was. -/
theorem answered_same (s : Session) {k : Kernel} {id : Nat} (tended : k.Tended)
    (single : k.lines.map (·.id) = [id]) (count : Nat) (lines : List String) :
    let answered := (({ s with kernel := k.drain.2 } : Session).answerFrom count lines).2
    answered.kernel.Tended ∧ answered.kernel.lines.map (·.id) = [id] ∧
      (answered.kernel.Survives → k.Survives) := by
  have drained : k.drain.2.Tended := tended.turn .drain fun _ => rfl
  obtain ⟨tended', jobs, same⟩ :=
    answerFrom_same { s with kernel := k.drain.2 } count lines drained
  exact ⟨tended', (congrArg (List.map _) same).trans single, fun h => h.of_eq jobs same⟩

/-- A line that is over in the end has not been lost before. -/
theorem survives_of_finishes {rounds id polls : Nat} {s : Session} {lines : List String}
    (tended : s.kernel.Tended) (single : s.kernel.lines.map (·.id) = [id])
    (ends : s.finishes rounds id polls lines = true) : s.kernel.Survives := by
  induction polls generalizing s lines with
  | zero => cases ends
  | succ polls ih =>
    have numbered : s.kernel.Numbered := by
      rw [Kernel.Numbered, single]
      exact List.nodup_singleton id
    obtain ⟨k, proceeds, ⟨evaluation, output, found, polled⟩ | ⟨unfinished, output, polled⟩⟩ :=
      s.poll_cases rounds id
    · have finished : Goal.isFinished k id = true := by rw [Goal.isFinished, found]
      have done := Service.linesDone_of_isFinished ((tended.proceeds_ids proceeds).trans single)
        finished
      exact tended.survives_of_proceeds numbered proceeds
        ((tended.proceeds proceeds).survives_of_linesDone done)
    · rw [finishes, polled] at ends
      obtain ⟨answered, ids, survives⟩ := s.answered_same (tended.proceeds proceeds)
        ((tended.proceeds_ids proceeds).trans single) (k.workspace.requests - s.served) lines
      exact tended.survives_of_proceeds numbered proceeds (survives (ih answered ids ends))

end Session

namespace Service

variable {v v' : Service} {notes : List Note} {k : Kernel}

/-- What the kernel does by itself between two steps of the session. -/
theorem InStep.proceeds_steps (h : v.InStep) (proceeds : v.kernel.Proceeds k)
    (survives : k.Survives) : ∃ notes, v.Steps (v.next notes k) := by
  induction proceeds with
  | refl =>
    refine ⟨[], ?_⟩
    have same : v.next [] v.kernel = v := by
      unfold next
      rw [List.append_nil]
      rfl
    rw [same]
  | @tail mid last proceeds step ih =>
    have tended := h.tended.proceeds proceeds
    have numbered : mid.Numbered :=
      (congrArg List.Nodup (h.tended.proceeds_ids proceeds)).mpr h.sound.numbered
    obtain ⟨notes, steps⟩ := ih (tended.survives_of_proceed numbered step survives)
    have inStep := h.steps steps
    have proceed : (v.next notes mid).kernel.Proceed last := step
    obtain ⟨notes', happens⟩ := inStep.exists_happens proceed survives
    refine ⟨notes ++ notes', ?_⟩
    have both : (v.next notes mid).next notes' last = v.next (notes ++ notes') last := by
      unfold next
      rw [List.append_assoc]
    rw [← both]
    exact steps.tail (.proceed proceed happens)

/-- The session answers all reads that it has not served yet. -/
theorem serve_steps {id count : Nat} (serves : v.attention = .serves id)
    (behind : v.workspace.requests - v.session.served = count) (lines : List String) :
    ∃ v', v.Steps v' ∧ v'.attention = .looks id ∧
      v'.session = (v.session.answerFrom count lines).2 := by
  induction count generalizing v lines with
  | zero => exact ⟨_, .single (.pause serves (by omega)), rfl, rfl⟩
  | succ count ih =>
    have same : Kernel.Same _ (v.kernel.provideInput (lines.headD "")) := Kernel.callReady_same _
    have requests : (v.kernel.provideInput (lines.headD "")).workspace.requests =
        v.workspace.requests := congrArg (·.requests) same.workspace
    have called : v.Step (v.call id) := .call serves (by omega)
    have answered : (v.call id).Step ((v.call id).answer id (lines.headD "")) := .answer rfl _
    have left : ((v.call id).answer id (lines.headD "")).workspace.requests -
        ((v.call id).answer id (lines.headD "")).session.served = count := by
      show (v.kernel.provideInput (lines.headD "")).workspace.requests - (v.session.served + 1) = _
      omega
    obtain ⟨v', steps, looks, session⟩ := ih rfl left lines.tail
    exact ⟨v', .head called (.head answered steps), looks, session⟩

theorem isFinished_eq_false {id : Nat} (lines : k.lines.map (·.id) = [id])
    (unfinished : ∀ evaluation, k.line? id ≠ some (.finished evaluation)) :
    Goal.isFinished k id = false := by
  obtain ⟨line, single, rfl⟩ := List.map_eq_singleton_iff.mp lines
  have found : k.line? line.id = some line.state := by
    unfold Kernel.line?
    simp [single]
  unfold Goal.isFinished
  rw [found] at unfinished ⊢
  cases state : line.state with
  | finished evaluation => exact absurd (congrArg some state) (unfinished evaluation)
  | _ => rfl

/-- A session that follows a line to its end takes steps that lead there. -/
theorem InStep.follow_steps {rounds id polls : Nat} {shown : String} {lines : List String}
    (h : v.InStep) (looks : v.attention = .looks id)
    (ends : v.session.finishes rounds id polls lines = true) :
    ∃ v', v.Steps v' ∧ v'.attention = .idle ∧
      v'.session = (v.session.follow rounds id polls shown lines).session := by
  induction polls generalizing v shown lines with
  | zero => cases ends
  | succ polls ih =>
    have single := h.lines
    rw [looks] at single
    obtain ⟨k, proceeds, looked⟩ := v.session.poll_cases rounds id
    have tended : k.Tended := h.tended.proceeds proceeds
    have ids := (h.tended.proceeds_ids proceeds).trans single
    rcases looked with ⟨evaluation, output, found, polled⟩ | ⟨unfinished, output, polled⟩
    · have finished : Goal.isFinished k id = true := by rw [Goal.isFinished, found]
      obtain ⟨notes, steps⟩ := h.proceeds_steps proceeds
        (tended.survives_of_linesDone (linesDone_of_isFinished ids finished))
      -- It sees the end, shows what was said, and takes the outcome.
      have look : (v.next notes k).Step ((v.next notes k).look id) := .look looks
      have shows : ((v.next notes k).look id).attention = .shows id true :=
        congrArg (Attention.shows id) finished
      have flush := Step.flush shows
      have close : Step _ ((((v.next notes k).look id).flush id true).close id) := .close rfl
      refine ⟨_, ((steps.tail look).tail flush).tail close, rfl, ?_⟩
      have taken : (k.drain.2.takeLine id).2 = (k.removeLine id).drain.2 :=
        k.drain.2.takeLine_snd id
      rw [Session.follow, polled]
      show { v.session with
        kernel := (k.drain.2.takeLine id).2
        served := (k.drain.2.takeLine id).2.workspace.requests } = _
      rw [taken]
      rfl
    · rw [Session.finishes, polled] at ends
      let count := k.workspace.requests - v.session.served
      obtain ⟨answered, ids', survives⟩ := v.session.answered_same tended ids count lines
      obtain ⟨notes, steps⟩ := h.proceeds_steps proceeds
        (survives (Session.survives_of_finishes answered ids' ends))
      -- It sees no end, shows what was said, and serves the reads that are new.
      have look : (v.next notes k).Step ((v.next notes k).look id) := .look looks
      have shows : ((v.next notes k).look id).attention = .shows id false :=
        congrArg (Attention.shows id) (isFinished_eq_false ids unfinished)
      have flush := Step.flush shows
      obtain ⟨v', served, looks', session⟩ := serve_steps
        (show (((v.next notes k).look id).flush id false).attention = .serves id from rfl)
        (show k.workspace.requests - v.session.served = count from rfl) lines
      have there : v.Steps v' := ((steps.tail look).tail flush).trans served
      rw [Session.follow, polled]
      rw [show (((v.next notes k).look id).flush id false).session =
        { v.session with kernel := k.drain.2 } from rfl] at session
      have later : v'.session.finishes rounds id polls
          (({ v.session with kernel := k.drain.2 } : Session).answerFrom count lines).1 = true := by
        rw [session]
        exact ends
      obtain ⟨last, more, idle, result⟩ := ih (h.steps there) looks' later
      refine ⟨last, there.trans more, idle, result.trans ?_⟩
      rw [session]

/-- What a session does with a line is to take such steps. -/
theorem InStep.run_steps {effort : Session.Effort} {line : String} {input : List String}
    (h : v.InStep) (idle : v.attention = .idle)
    (ends : (v.session.submit line).2.finishes effort.rounds (v.session.submit line).1 effort.polls
      input = true) :
    ∃ v', v.Steps v' ∧ v'.attention = .idle ∧
      v'.session = (v.session.run effort line input).session := by
  have submit : v.Step (v.submit line) := .submit line idle
  obtain ⟨v', steps, idle', session⟩ := (h.step submit).follow_steps rfl ends
  exact ⟨v', .head submit steps, idle', session⟩

/-! ## In step -/

theorem Steps.notes_grow (steps : v.Steps v') : ∃ later, v'.notes = v.notes ++ later := by
  induction steps with
  | refl => exact ⟨[], (List.append_nil _).symm⟩
  | @tail mid last _ step ih =>
    have grown : ∃ later, last.notes = mid.notes ++ later := by
      cases step with
      | proceed _ _ => exact ⟨_, rfl⟩
      | answer _ line => exact ⟨_, rfl⟩
      | _ => exact ⟨[], (List.append_nil _).symm⟩
    obtain ⟨first, same⟩ := ih
    obtain ⟨later, same'⟩ := grown
    exact ⟨first ++ later, by rw [same', same, List.append_assoc]⟩

/-- While no line is running, all reads have been answered, each with the answer of its number. -/
theorem InStep.at_rest (h : v.InStep) (idle : v.attention = .idle) :
    v.kernel.jobs = [] ∧ v.workspace.readers = [] ∧ v.workspace.inputs = [] ∧
      v.session.served = v.workspace.requests ∧
      (asked v.notes).length = v.answers.length ∧
      delivered v.notes = (asked v.notes).zip v.answers := by
  obtain ⟨jobs, readers, inputs, caught, all⟩ := h.caught_up (.of_nil (h.lines_nil idle))
  have served := h.served
  rw [idle] at served
  have even : (asked v.notes).length = v.answers.length := by
    rw [h.order.asked, List.length_range, ← caught]
    exact served
  refine ⟨jobs, readers, inputs, caught, even, h.deliveries.eq_of_length ?_⟩
  rw [List.length_zip, ← even, Nat.min_self, h.order.asked, List.length_range, all]

/-- While a session takes lines, one after the other, it keeps in step with the kernel, however its
looks at a line fall among what the kernel does: it has never served more reads than have started,
it asks for a line of input once for each read that it serves, reads have numbers of their own in
the order in which they start, and the n-th answer goes to the n-th read, to no other and only
once. When no line is running as many reads have been served as have started, and no answer is left
for a later line; so during each line there was one call for each read that started, and these reads
got the answers of that line in order. Anything that the kernel does by itself is among these steps,
and so are whole runs of a session. -/
theorem reads_are_served_in_step {s : Session} (fresh : s.kernel.Fresh) (blank : s.kernel.Blank)
    (new : s.served = 0) (steps : (of s).Steps v) :
    v.session.served ≤ v.workspace.requests ∧
    v.calls = v.session.served ∧
    asked v.notes = List.range v.workspace.requests ∧
    delivered v.notes <+: (asked v.notes).zip v.answers ∧
    (v.attention = .idle →
      v.kernel.jobs = [] ∧ v.workspace.readers = [] ∧ v.workspace.inputs = [] ∧
      v.session.served = v.workspace.requests ∧
      delivered v.notes = (asked v.notes).zip v.answers) ∧
    (∀ v', v.attention = .idle → v.Steps v' → v'.attention = .idle →
      ∃ later answers, v'.notes = v.notes ++ later ∧ v'.answers = v.answers ++ answers ∧
        v'.calls = v.calls + (asked later).length ∧
        delivered later = (asked later).zip answers) ∧
    (∀ k, v.kernel.Proceed k → k.Survives → ∃ notes, v.Step (v.next notes k)) ∧
    ∀ effort line input, v.attention = .idle →
      (v.session.submit line).2.finishes effort.rounds (v.session.submit line).1 effort.polls
        input = true →
      ∃ v', v.Steps v' ∧ v'.attention = .idle ∧
        v'.session = (v.session.run effort line input).session := by
  have h : v.InStep := (of_inStep fresh blank new).steps steps
  refine ⟨h.le, h.calls, h.order.asked, h.deliveries, ?_, ?_, ?_, ?_⟩
  · intro idle
    obtain ⟨jobs, readers, inputs, caught, -, all⟩ := h.at_rest idle
    exact ⟨jobs, readers, inputs, caught, all⟩
  · intro v' idle more idle'
    have h' := h.steps more
    obtain ⟨later, grown⟩ := more.notes_grow
    obtain ⟨-, -, -, caught, even, all⟩ := h.at_rest idle
    obtain ⟨-, -, -, caught', -, all'⟩ := h'.at_rest idle'
    have answers : v'.answers = v.answers ++ Note.provided later := by
      rw [← h'.provided, grown, Note.provided_append, h.provided]
    refine ⟨later, Note.provided later, grown, answers, ?_, ?_⟩
    · have reads := congrArg List.length (Note.asked_append v.notes later)
      rw [← grown, h'.order.asked, h.order.asked, List.length_append, List.length_range,
        List.length_range] at reads
      rw [h'.calls, h.calls, caught', caught, reads]
    · rw [grown, answers, Note.asked_append, Note.delivered_append, List.zip_append even,
        all] at all'
      exact List.append_cancel_left all'
  · intro k proceed survives
    obtain ⟨notes, happens⟩ := h.exists_happens proceed survives
    exact ⟨notes, .proceed proceed happens⟩
  · exact fun effort line input idle ends => h.run_steps idle ends

/-- Two scripts read. -/
def counter : Session where
  kernel := .withParts .isolated (.memory ⟨[("a", "readline"), ("b", "readline")]⟩) .recording
    (.ofCommands [Builtin.readLine, Builtin.run])

/-- They run side by side, and with the line no answer is left. -/
theorem counter_serves_scripts : ∃ v, (of counter).Steps v ∧ v.attention = .idle ∧
    v.session = (counter.run ⟨6, 12⟩ "run a b" ["x", "y"]).session ∧ v.calls = 2 ∧
    v.workspace.inputs = [] := by
  have fresh : counter.kernel.Fresh := Kernel.withParts_fresh ..
  have blank : counter.kernel.Blank := Kernel.withParts_blank ..
  obtain ⟨-, -, -, -, -, -, -, runs⟩ := reads_are_served_in_step fresh blank rfl .refl
  obtain ⟨v, steps, idle, session⟩ :=
    runs ⟨6, 12⟩ "run a b" ["x", "y"] rfl (by decide +kernel)
  obtain ⟨-, calls, -, -, rest, -⟩ := reads_are_served_in_step fresh blank rfl steps
  have served : v.session.served = 2 := by
    rw [session]
    decide +kernel
  exact ⟨v, steps, idle, session, calls.trans served, (rest idle).2.2.1⟩

end Service

end LineScript
