import LineScript.Proofs.Kernel.Ledger

/-!
# Requests and reads

Requests of the host and reads of input share a counter, a queue and one message, which says whether
input is accepted. `Signal` is what can happen to them and `Workspace.Deals` what the workspace does
then; a `Note` is a signal with the messages that went out. Nothing else says anything about input.

* The requests that have begun and have not settled are those that are counted (`Balanced.busy`),
  and what was said last about input follows from the signals alone (`Balanced.idle`,
  `Balanced.engaged`).
* As long as nobody who waits for input is let go, the answers go to the reads in order (`InOrder`).
-/

namespace LineScript

/-- What happens to the requests of the host and to the reads of input. -/
inductive Signal where
  /-- A request begins. -/
  | begins
  /-- A request is over, or it is given up. -/
  | settles
  /-- A read starts, and the ticket is its number. -/
  | asks (ticket : Nat)
  /-- A read is answered. -/
  | gets (ticket : Nat) (line : String)
  /-- A read ends without a line. -/
  | cancels (ticket : Nat)
  /-- Whoever reads is let go. -/
  | leaves (ticket : Nat)
  | provides (line : String)
  deriving DecidableEq

/-- What happened and what was said then. -/
structure Note where
  signal? : Option Signal := none
  said : List Message := []

/-- What a message says about input. -/
def Message.toggle? : Message → Option Bool
  | .input enabled => some enabled
  | _ => none

namespace Signal

def ask? : Signal → Option Nat
  | .asks ticket => some ticket
  | _ => none

def delivery? : Signal → Option (Nat × String)
  | .gets ticket line => some (ticket, line)
  | _ => none

def provision? : Signal → Option String
  | .provides line => some line
  | _ => none

/-- Somebody who waits for input gets none. -/
def isLoss : Signal → Bool
  | .cancels _ => true
  | .leaves _ => true
  | _ => false

/-- It comes of what a line or a job does by itself. -/
def isInner : Signal → Bool
  | .begins => true
  | .settles => true
  | .asks _ => true
  | .gets .. => true
  | _ => false

/-- What is said about input while a request is in flight. -/
def turn? : Signal → Option Bool
  | .begins => some false
  | .asks _ => some true
  | .gets .. => some false
  | .cancels _ => some false
  | _ => none

end Signal

namespace Note

def signals (notes : List Note) : List Signal :=
  notes.filterMap (·.signal?)

/-- How many requests have begun. -/
def begun (notes : List Note) : Nat :=
  (signals notes).count .begins

/-- How many requests have settled. -/
def settled (notes : List Note) : Nat :=
  (signals notes).count .settles

/-- The tickets of the reads that have started, in order. -/
def asked (notes : List Note) : List Nat :=
  (signals notes).filterMap Signal.ask?

/-- The reads that were answered, each with its line, in order. -/
def delivered (notes : List Note) : List (Nat × String) :=
  (signals notes).filterMap Signal.delivery?

/-- The lines of input that were provided, in order. -/
def provided (notes : List Note) : List String :=
  (signals notes).filterMap Signal.provision?

/-- What is said about input, in order. -/
def toggles (notes : List Note) : List Bool :=
  (notes.flatMap (·.said)).filterMap Message.toggle?

/-- What was said last about input. -/
def lastToggle? (notes : List Note) : Option Bool :=
  (toggles notes).getLast?

/-- What the signals make of it while a request is in flight. -/
def lastTurn? (notes : List Note) : Option Bool :=
  ((signals notes).filterMap Signal.turn?).getLast?

variable (log : List Note) (note : Note)

theorem signals_snoc : signals (log ++ [note]) = signals log ++ note.signal?.toList := by
  cases h : note.signal? <;> simp [signals, h]

theorem filterMap_signals_snoc {β : Type} (f : Signal → Option β) :
    (signals (log ++ [note])).filterMap f =
      (signals log).filterMap f ++ (note.signal?.bind f).toList := by
  rw [signals_snoc, List.filterMap_append]
  cases note.signal? with
  | none => rfl
  | some signal => cases h : f signal <;> simp [h]

theorem asked_snoc :
    asked (log ++ [note]) = asked log ++ (note.signal?.bind Signal.ask?).toList :=
  filterMap_signals_snoc log note _

theorem delivered_snoc :
    delivered (log ++ [note]) = delivered log ++ (note.signal?.bind Signal.delivery?).toList :=
  filterMap_signals_snoc log note _

theorem provided_snoc :
    provided (log ++ [note]) = provided log ++ (note.signal?.bind Signal.provision?).toList :=
  filterMap_signals_snoc log note _

theorem begun_snoc :
    begun (log ++ [note]) = begun log + note.signal?.toList.count .begins := by
  rw [begun, signals_snoc, List.count_append, begun]

theorem settled_snoc :
    settled (log ++ [note]) = settled log + note.signal?.toList.count .settles := by
  rw [settled, signals_snoc, List.count_append, settled]

theorem lastToggle?_append (notes : List Note) :
    lastToggle? (log ++ notes) = (lastToggle? notes).or (lastToggle? log) := by
  simp [lastToggle?, toggles, List.getLast?_append]

theorem lastToggle?_snoc : lastToggle? (log ++ [note]) =
    (note.said.filterMap Message.toggle?).getLast?.or (lastToggle? log) := by
  rw [lastToggle?_append]
  simp [lastToggle?, toggles]

theorem lastTurn?_snoc :
    lastTurn? (log ++ [note]) = (note.signal?.bind Signal.turn?).or (lastTurn? log) := by
  rw [lastTurn?, filterMap_signals_snoc, List.getLast?_append, lastTurn?]
  cases note.signal?.bind Signal.turn? <;> rfl

/-- Whoever waits for input gets a line. -/
def Lossless (notes : List Note) : Prop :=
  ∀ signal ∈ signals notes, signal.isLoss = false

/-- All of it is what lines and jobs do by themselves. -/
def Inner (notes : List Note) : Prop :=
  ∀ signal ∈ signals notes, signal.isInner = true

theorem signals_append (notes : List Note) :
    signals (log ++ notes) = signals log ++ signals notes :=
  List.filterMap_append

theorem asked_append (notes : List Note) : asked (log ++ notes) = asked log ++ asked notes := by
  simp [asked, signals_append]

theorem delivered_append (notes : List Note) :
    delivered (log ++ notes) = delivered log ++ delivered notes := by
  simp [delivered, signals_append]

theorem provided_append (notes : List Note) :
    provided (log ++ notes) = provided log ++ provided notes := by
  simp [provided, signals_append]

variable {log note}

theorem lossless_append {notes : List Note} :
    Lossless (log ++ notes) ↔ Lossless log ∧ Lossless notes := by
  simp [Lossless, signals_append, or_imp, forall_and]

theorem inner_nil : Inner [] :=
  nofun

theorem Inner.append {notes : List Note} (h : Inner log) (later : Inner notes) :
    Inner (log ++ notes) := by
  intro signal mem
  rw [signals_append, List.mem_append] at mem
  exact mem.elim (h signal) (later signal)

theorem Inner.snoc (h : Inner log) (inner : note.signal?.all Signal.isInner = true) :
    Inner (log ++ [note]) := by
  refine h.append fun signal mem => ?_
  obtain ⟨_, last, same⟩ := List.mem_filterMap.mp mem
  rw [List.mem_singleton.mp last] at same
  simpa [same] using inner

theorem Inner.lossless (h : Inner log) : Lossless log := by
  intro signal mem
  have inner := h signal mem
  cases signal with
  | cancels ticket => cases inner
  | leaves ticket => cases inner
  | _ => rfl

/-- Lines and jobs provide no input. -/
theorem Inner.provided_eq_nil (h : Inner log) : provided log = [] := by
  refine List.filterMap_eq_nil_iff.mpr fun signal mem => ?_
  have inner := h signal mem
  cases signal with
  | provides line => cases inner
  | _ => rfl

/-- Whatever has happened: who settles was in flight, and gives input back if nobody else was; and
with nobody in flight input is not off. -/
structure Fair (log : List Note) : Prop where
  settling : ∀ before note after, log = before ++ note :: after → note.signal? = some .settles →
    settled before < begun before ∧
      note.said = if begun before = settled before + 1 then [.input true] else []
  resting : ∀ before, before <+: log → begun before = settled before →
    lastToggle? before ≠ some false

theorem fair_nil : Fair [] where
  settling := by simp
  resting := by
    intro before pre
    rw [List.prefix_nil.mp pre]
    exact fun _ => nofun

end Note

namespace Workspace

open Note

/-- Requests and reads are left alone, and nothing is said about input. -/
structure Apart (ws : Workspace) (said : List Message) (ws' : Workspace) : Prop where
  busy : ws'.busy = ws.busy
  requests : ws'.requests = ws.requests
  inputs : ws'.inputs = ws.inputs
  readers : ws'.readers = ws.readers
  pending : ws'.pending = ws.pending ++ said
  silent : ∀ m ∈ said, m.toggle? = none

/-- What the workspace does with a signal, or without one. -/
inductive Deals (ws : Workspace) : Note → Workspace → Prop where
  | begins : Deals ws ⟨some .begins, [.input false]⟩ ws.beginRequest
  | settles (busy : 0 < ws.busy) : Deals ws ⟨some .settles, ws.endNotice⟩ ws.endRequest
  | asks : Deals ws ⟨some (.asks ws.requests), [.input true]⟩ ws.askInput.1
  | gets {ticket : Nat} {line : String} (first : ws.isFirst ticket = true)
      (head : ws.inputs.head? = some line) :
      Deals ws ⟨some (.gets ticket line), [.input (ws.busy == 0)]⟩ (ws.readInput ticket).2
  | cancels (ticket : Nat) : Deals ws ⟨some (.cancels ticket), [.input (ws.busy == 0)]⟩
      ((ws.leaveQueue ticket).push (.input (ws.busy == 0)))
  | leaves (ticket : Nat) : Deals ws ⟨some (.leaves ticket), []⟩ (ws.leaveQueue ticket)
  | provides (line : String) : Deals ws ⟨some (.provides line), []⟩ (ws.provideInput line)
  | apart {said : List Message} {ws' : Workspace} (apart : ws.Apart said ws') :
      Deals ws ⟨none, said⟩ ws'

/-- One thing after the other. -/
inductive Dealt (ws : Workspace) : List Note → Workspace → Prop where
  | nil : Dealt ws [] ws
  | snoc {notes : List Note} {note : Note} {mid last : Workspace} (dealt : Dealt ws notes mid)
      (deals : mid.Deals note last) : Dealt ws (notes ++ [note]) last

variable {ws ws' ws'' : Workspace} {note : Note} {notes notes' log : List Note}
  {said : List Message}

theorem Dealt.single (deals : ws.Deals note ws') : ws.Dealt [note] ws' :=
  .snoc .nil deals

theorem Dealt.trans (first : ws.Dealt notes ws') (second : ws'.Dealt notes' ws'') :
    ws.Dealt (notes ++ notes') ws'' := by
  induction second with
  | nil => rwa [List.append_nil]
  | snoc _ deals ih =>
    rw [← List.append_assoc]
    exact ih.snoc deals

theorem Apart.of_eq (busy : ws'.busy = ws.busy) (requests : ws'.requests = ws.requests)
    (inputs : ws'.inputs = ws.inputs) (readers : ws'.readers = ws.readers)
    (pending : ws'.pending = ws.pending) : ws.Apart [] ws' :=
  ⟨busy, requests, inputs, readers, by rw [pending, List.append_nil], by simp⟩

theorem Apart.refl (ws : Workspace) : ws.Apart [] ws :=
  .of_eq rfl rfl rfl rfl rfl

theorem Apart.publish (ws : Workspace) (silent : ∀ m ∈ said, m.toggle? = none) :
    ws.Apart said (ws.publish said) :=
  ⟨rfl, rfl, rfl, rfl, ws.pending_publish said, silent⟩

theorem Apart.startBatch {invoker : Option String} {names : List String} {started : Started}
    (ok : ws.startBatch invoker names = .ok (started, ws')) :
    ws.Apart (startNotice names ws') ws' := by
  have pending := pending_startBatch ok
  obtain ⟨-, scripts, e, -, -, -, rfl⟩ := startBatch_ok ok
  refine ⟨rfl, rfl, rfl, rfl, pending, ?_⟩
  unfold startNotice
  split
  · simp
  · simp [Scheduler.announcement, Message.toggle?]

theorem Apart.finish (ws : Workspace) (ended : Instance) :
    ws.Apart (ws.scheduler.finish ended).2 (ws.finish ended) := by
  rw [finish_eq]
  refine ⟨rfl, rfl, rfl, rfl, ws.pending_publish _, ?_⟩
  unfold Scheduler.finish
  split <;> simp [Scheduler.announcement, Message.toggle?]

theorem Apart.stop (ws : Workspace) (target : StopTarget) :
    ws.Apart (ws.scheduler.stop target).messages (ws.stop target).2 := by
  rw [stop_eq]
  refine ⟨rfl, rfl, rfl, rfl, ws.pending_publish _, ?_⟩
  unfold Scheduler.stop
  dsimp only
  split <;> simp [Scheduler.announcement, Message.toggle?]

theorem Apart.remain (ws : Workspace) (wait : Wait) : ws.Apart [] (wait.remain ws) := by
  cases wait <;> exact .of_eq rfl rfl rfl rfl rfl

/-! ## Messages -/

/-- All that is said comes to the bus. -/
theorem Deals.pending (deals : ws.Deals note ws') : ws'.pending = ws.pending ++ note.said := by
  cases deals with
  | begins => exact pending_push _ _
  | settles => exact pending_endRequest ws
  | asks => exact ws.pending_push _
  | gets => exact pending_push _ _
  | cancels ticket => exact pending_push _ _
  | leaves ticket => exact (List.append_nil _).symm
  | provides line => exact (List.append_nil _).symm
  | apart apart => exact apart.pending

theorem Dealt.pending (dealt : ws.Dealt notes ws') :
    ws'.pending = ws.pending ++ notes.flatMap (·.said) := by
  induction dealt with
  | nil => simp
  | snoc _ deals ih => simp [deals.pending, ih]

/-! ## The counter and the toggle -/

/-- What the notes say of requests and of input, and the workspace as well. -/
structure Balanced (ws : Workspace) (log : List Note) : Prop where
  busy : begun log = settled log + ws.busy
  idle : ws.busy = 0 → lastToggle? log ≠ some false
  engaged : 0 < ws.busy → lastToggle? log = lastTurn? log

theorem balanced_nil (idle : ws.busy = 0) : ws.Balanced [] where
  busy := by
    rw [idle]
    rfl
  idle _ := nofun
  engaged flight := absurd idle (Nat.ne_of_gt flight)

theorem busy_endRequest (ws : Workspace) : ws.endRequest.busy = ws.busy - 1 := by
  unfold endRequest
  by_cases last : ws.busy = 1 <;> simp [last, push]

theorem Apart.no_toggle (apart : ws.Apart said ws') : said.filterMap Message.toggle? = [] :=
  List.filterMap_eq_nil_iff.mpr apart.silent

/-- A note that leaves the counter alone and says the same as its signal. -/
theorem Balanced.aside (h : ws.Balanced log) (busy : ws'.busy = ws.busy)
    (begins : note.signal?.toList.count .begins = 0)
    (settles : note.signal?.toList.count .settles = 0)
    (idle : ws.busy = 0 → (note.said.filterMap Message.toggle?).getLast? ≠ some false)
    (engaged : 0 < ws.busy →
      (note.said.filterMap Message.toggle?).getLast? = note.signal?.bind Signal.turn?) :
    ws'.Balanced (log ++ [note]) where
  busy := by
    rw [begun_snoc, settled_snoc, begins, settles, busy]
    exact h.busy
  idle := by
    rw [busy, lastToggle?_snoc]
    intro none
    cases last : (note.said.filterMap Message.toggle?).getLast? with
    | none => exact h.idle none
    | some enabled => simpa [last] using idle none
  engaged := by
    rw [busy, lastToggle?_snoc, lastTurn?_snoc]
    intro some
    rw [engaged some, h.engaged some]

theorem Balanced.deals (h : ws.Balanced log) (deals : ws.Deals note ws') :
    ws'.Balanced (log ++ [note]) := by
  cases deals with
  | begins =>
    refine ⟨?_, fun none => ?_, fun _ => ?_⟩
    · have busy := h.busy
      simp only [begun_snoc, settled_snoc]
      simp [beginRequest, push]
      omega
    · simp [beginRequest, push] at none
    · simp [lastToggle?_snoc, lastTurn?_snoc, Message.toggle?, Signal.turn?]
  | settles flight =>
    have before := h.busy
    have after : ws.endRequest.busy = ws.busy - 1 := busy_endRequest ws
    refine ⟨?_, fun none => ?_, fun some => ?_⟩
    · simp only [begun_snoc, settled_snoc, after]
      simp
      omega
    · have last : ws.busy = 1 := by omega
      simp [lastToggle?_snoc, endNotice, last, Message.toggle?]
    · have more : ws.busy ≠ 1 := by omega
      have engaged := h.engaged flight
      simpa [lastToggle?_snoc, lastTurn?_snoc, endNotice, more, Signal.turn?] using engaged
  | asks =>
    exact h.aside rfl rfl rfl (by simp [Message.toggle?])
      (by simp [Message.toggle?, Signal.turn?])
  | gets first head =>
    refine h.aside rfl rfl rfl (fun none => ?_) fun some => ?_
    · simp [Message.toggle?, none]
    · simp [Message.toggle?, Signal.turn?, Nat.ne_of_gt some]
  | cancels ticket =>
    refine h.aside rfl rfl rfl (fun none => ?_) fun some => ?_
    · simp [Message.toggle?, none]
    · simp [Message.toggle?, Signal.turn?, Nat.ne_of_gt some]
  | leaves ticket => exact h.aside rfl rfl rfl (by simp) (by simp [Signal.turn?])
  | provides line => exact h.aside rfl rfl rfl (by simp) (by simp [Signal.turn?])
  | apart apart =>
    exact h.aside apart.busy rfl rfl (by simp [apart.no_toggle]) (by simp [apart.no_toggle])

theorem Balanced.resting (h : ws.Balanced log) (even : begun log = settled log) :
    lastToggle? log ≠ some false := by
  have busy := h.busy
  exact h.idle (by omega)

theorem Balanced.fair (h : ws.Balanced log) (fair : Fair log) (deals : ws.Deals note ws') :
    Fair (log ++ [note]) where
  settling := by
    intro before last after split settles
    rcases after.eq_nil_or_concat with rfl | ⟨init, final, rfl⟩
    · obtain ⟨rfl, same⟩ := List.append_inj' split rfl
      obtain rfl := List.singleton_inj.mp same
      have busy := h.busy
      cases deals with
      | settles flight =>
        have one : ws.busy = 1 ↔ begun log = settled log + 1 := by omega
        refine ⟨by omega, ?_⟩
        simp only [endNotice, one]
      | _ => cases settles
    · rw [List.concat_eq_append, ← List.cons_append, ← List.append_assoc] at split
      obtain ⟨rfl, -⟩ := List.append_inj' split rfl
      exact fair.settling before last init rfl settles
  resting := by
    intro before pre even
    rcases List.prefix_concat_iff.mp pre with rfl | pre
    · exact (h.deals deals).resting even
    · exact fair.resting before pre even

/-! ## The queue -/

/-- The reads are numbered as they start, the first ones have their answers, each the one that was
provided in its turn, and the others wait in order. -/
structure InOrder (ws : Workspace) (log : List Note) : Prop where
  asked : asked log = List.range ws.requests
  tickets : (delivered log).map Prod.fst = List.range (delivered log).length
  le : (delivered log).length ≤ ws.requests
  readers : ws.readers =
    List.range' (delivered log).length (ws.requests - (delivered log).length)
  answers : provided log = (delivered log).map Prod.snd ++ ws.inputs

theorem inOrder_nil (requests : ws.requests = 0) (inputs : ws.inputs = [])
    (readers : ws.readers = []) : ws.InOrder [] := by
  refine ⟨?_, rfl, Nat.zero_le _, ?_, ?_⟩
  · rw [requests]
    rfl
  · rw [readers, requests]
    rfl
  · rw [inputs]
    rfl

/-- Reads are never taken back. -/
theorem InOrder.requests_le (h : ws.InOrder log) (later : ws'.InOrder (log ++ notes)) :
    ws.requests ≤ ws'.requests := by
  have grows := congrArg List.length (asked_append log notes)
  rw [h.asked, later.asked, List.length_append, List.length_range, List.length_range] at grows
  omega

theorem InOrder.aside (h : ws.InOrder log) (requests : ws'.requests = ws.requests)
    (inputs : ws'.inputs = ws.inputs) (readers : ws'.readers = ws.readers)
    (ask : note.signal?.bind Signal.ask? = none)
    (delivery : note.signal?.bind Signal.delivery? = none)
    (provision : note.signal?.bind Signal.provision? = none) : ws'.InOrder (log ++ [note]) := by
  have same : Note.delivered (log ++ [note]) = Note.delivered log := by
    rw [delivered_snoc, delivery]
    exact List.append_nil _
  refine ⟨?_, ?_, ?_, ?_, ?_⟩
  · rw [asked_snoc, ask, requests, ← h.asked]
    exact List.append_nil _
  · rw [same, h.tickets]
  · rw [same, requests]
    exact h.le
  · rw [same, requests, readers, h.readers]
  · rw [same, provided_snoc, provision, inputs, ← h.answers]
    exact List.append_nil _

theorem InOrder.asks (h : ws.InOrder log) :
    ws.askInput.1.InOrder (log ++ [⟨some (.asks ws.requests), [.input true]⟩]) := by
  have le := h.le
  have later : ws.askInput.1.requests = ws.requests + 1 := rfl
  have same : delivered (log ++ [⟨some (.asks ws.requests), [.input true]⟩]) = delivered log := by
    rw [delivered_snoc]
    exact List.append_nil _
  refine ⟨?_, ?_, ?_, ?_, ?_⟩
  · rw [asked_snoc, later, List.range_succ, h.asked]
    rfl
  · rw [same, h.tickets]
  · rw [same, later]
    omega
  · have last : (delivered log).length + (ws.requests - (delivered log).length) = ws.requests := by
      omega
    rw [same, later, Nat.succ_sub le, List.range'_1_concat, last, ← h.readers]
    rfl
  · rw [same, provided_snoc]
    exact (List.append_nil _).trans h.answers

theorem InOrder.gets (h : ws.InOrder log) {ticket : Nat} {line : String} {said : List Message}
    (first : ws.isFirst ticket = true) (head : ws.inputs.head? = some line) :
    (ws.readInput ticket).2.InOrder (log ++ [⟨some (.gets ticket line), said⟩]) := by
  have same : delivered (log ++ [⟨some (.gets ticket line), said⟩]) =
      delivered log ++ [(ticket, line)] := delivered_snoc log _
  have left : (ws.readInput ticket).2.readers = ws.readers.filter (· != ticket) := rfl
  have rest : (ws.readInput ticket).2.inputs = ws.inputs.tail := rfl
  have waiting : ws.readers.head? = some ticket := by simpa [isFirst] using first
  obtain ⟨count, more⟩ : ∃ count, ws.requests - (delivered log).length = count + 1 := by
    refine Nat.exists_eq_add_one_of_ne_zero fun none => ?_
    rw [h.readers, none] at waiting
    cases waiting
  have queue := h.readers
  rw [more, List.range'_succ] at queue
  obtain rfl : (delivered log).length = ticket := by
    rw [queue] at waiting
    exact Option.some.inj waiting
  refine ⟨?_, ?_, ?_, ?_, ?_⟩
  · rw [asked_snoc, h.asked]
    exact List.append_nil _
  · rw [same, List.map_append, h.tickets, List.length_append, List.length_singleton,
      List.range_succ]
    rfl
  · rw [same, List.length_append, List.length_singleton]
    show _ ≤ ws.requests
    omega
  · have count' : ws.requests - ((delivered log).length + 1) = count := by omega
    rw [same, left, queue, List.length_append, List.length_singleton]
    show _ = List.range' _ (ws.requests - _)
    rw [count', List.filter_cons_of_neg (by simp), List.filter_eq_self.mpr]
    intro other mem
    have above := (List.mem_range'_1.mp mem).1
    simp only [bne_iff_ne, ne_eq]
    omega
  · obtain ⟨others, lines⟩ := List.head?_eq_some_iff.mp head
    rw [same, provided_snoc, rest, h.answers, lines]
    simp [Signal.provision?]

theorem InOrder.provides (h : ws.InOrder log) (line : String) :
    (ws.provideInput line).InOrder (log ++ [⟨some (.provides line), []⟩]) := by
  have same : delivered (log ++ [⟨some (.provides line), []⟩]) = delivered log :=
    (delivered_snoc log _).trans (List.append_nil _)
  refine ⟨?_, ?_, ?_, ?_, ?_⟩
  · rw [asked_snoc, h.asked]
    exact List.append_nil _
  · rw [same, h.tickets]
  · rw [same]
    exact h.le
  · rw [same]
    exact h.readers
  · rw [same, provided_snoc, h.answers, List.append_assoc]
    rfl

theorem InOrder.deals (h : ws.InOrder log) (deals : ws.Deals note ws')
    (lossless : Lossless [note]) : ws'.InOrder (log ++ [note]) := by
  cases deals with
  | begins => exact h.aside rfl rfl rfl rfl rfl rfl
  | settles flight =>
    have kept : ws.endRequest.requests = ws.requests ∧ ws.endRequest.inputs = ws.inputs ∧
        ws.endRequest.readers = ws.readers := by
      unfold endRequest
      by_cases last : ws.busy = 1 <;> simp [last, push]
    exact h.aside kept.1 kept.2.1 kept.2.2 rfl rfl rfl
  | asks => exact h.asks
  | gets first head => exact h.gets first head
  | cancels ticket => cases lossless _ (List.mem_singleton_self _)
  | leaves ticket => cases lossless _ (List.mem_singleton_self _)
  | provides line => exact h.provides line
  | apart apart => exact h.aside apart.requests apart.inputs apart.readers rfl rfl rfl

theorem InOrder.dealt (h : ws.InOrder log) (dealt : ws.Dealt notes ws')
    (lossless : Lossless notes) : ws'.InOrder (log ++ notes) := by
  induction dealt with
  | nil => rwa [List.append_nil]
  | snoc _ deals ih =>
    rw [lossless_append] at lossless
    rw [← List.append_assoc]
    exact (ih lossless.1).deals deals lossless.2

end Workspace

end LineScript
