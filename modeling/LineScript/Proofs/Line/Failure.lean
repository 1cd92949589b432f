import LineScript.Proofs.Line.Account
import Mathlib.Algebra.GroupWithZero.Nat

/-!
# Lines that fail

A line that fails has changed nothing. This is read off its account: what is changed is changed with
the last request of a line, and a line whose last request is granted neither fails nor responds
anything, so that no line around it has anything left to do. A line that goes on after a wait and
fails has waited for input. `position` and `screensize` are apart: they set two variables, and the
second one can be refused.
-/

namespace LineScript

/-- Each workspace that a run has in its hands, as it takes it and as it leaves it, as far as it
comes with what it finds after waits. -/
def Run.legs {α : Type} : Run α → Workspace → List Workspace → List (Workspace × Workspace)
  | .done _ last, ws, _ => [(ws, last)]
  | .await _ mid _, ws, [] => [(ws, mid)]
  | .await _ mid next, ws, later :: found => (ws, mid) :: (next later).legs later found
  | .endless, _, _ => []

namespace Workspace

/-- Variables, settings, the device and the scripts are as they were. Input may have been asked for
and read. -/
structure Spares (ws last : Workspace) : Prop where
  globals : last.globals = ws.globals
  terminal : last.terminal = ws.terminal
  device : last.device = ws.device
  scheduler : last.scheduler = ws.scheduler
  inbox : last.inbox = ws.inbox
  inputs : last.inputs <:+ ws.inputs
  told : ∃ said, last.bus.pending.toList = ws.bus.pending.toList ++ said ∧
    ∀ m ∈ said, ∃ enabled, m = .input enabled

/-- How many lines of input are gone. -/
def taken (leg : Workspace × Workspace) : Nat :=
  leg.1.inputs.length - leg.2.inputs.length

variable {ws mid last : Workspace}

theorem Spares.trans (first : Spares ws mid) (second : Spares mid last) : Spares ws last where
  globals := second.globals.trans first.globals
  terminal := second.terminal.trans first.terminal
  device := second.device.trans first.device
  scheduler := second.scheduler.trans first.scheduler
  inbox := second.inbox.trans first.inbox
  inputs := second.inputs.trans first.inputs
  told := by
    obtain ⟨said, told, toggles⟩ := first.told
    obtain ⟨more, toldMore, togglesMore⟩ := second.told
    refine ⟨said ++ more, by rw [toldMore, told, List.append_assoc], ?_⟩
    intro m mem
    rcases List.mem_append.mp mem with here | there
    · exact toggles m here
    · exact togglesMore m there

theorem spares_stir (ws : Workspace) (entropy : Entropy) : Spares ws (ws.stir entropy) :=
  ⟨rfl, rfl, rfl, rfl, rfl, List.suffix_rfl, [], by simp [stir], by simp⟩

theorem spares_askInput (ws : Workspace) : Spares ws ws.askInput.1 where
  globals := rfl
  terminal := rfl
  device := rfl
  scheduler := rfl
  inbox := rfl
  inputs := List.suffix_rfl
  told := ⟨[.input true], by simp [askInput, push], by simp⟩

theorem spares_readInput (ws : Workspace) (ticket : Nat) : Spares ws (ws.readInput ticket).2 where
  globals := rfl
  terminal := rfl
  device := rfl
  scheduler := rfl
  inbox := rfl
  inputs := List.tail_suffix ws.inputs
  told := ⟨[.input (ws.busy == 0)], by simp [readInput, push, leaveQueue],
    fun _ mem => ⟨_, List.mem_singleton.mp mem⟩⟩

end Workspace

namespace Line

/-- What a line has done that ends in this way: it leaves its owner alone, it has changed nothing,
and it spares every workspace that it has in its hands. At most one line of input is gone. -/
structure Innocent (call : Call) (ws : Workspace) (found : List Workspace) (run : Run Ended)
    (e : Ended) (log : List Entry) : Prop where
  owner : e.owner = call.owner
  none : ∀ entry ∈ log, entry.isGrant = false
  spares : ∀ leg ∈ run.legs ws found, leg.1.Spares leg.2
  reads : ((run.legs ws found).map Workspace.taken).sum ≤ 1

section

variable {call : Call} {ws start last : Workspace} {found : List Workspace} {e : Ended}
  {log : List Entry}

/-- A line that fails has changed nothing since, unless it came down to a command that sets two
variables. -/
theorem Close.spared_of_failed (close : Close call start e last log)
    (fails : e.evaluation.failed = true)
    (other : ∀ name ∈ pairing, command? (bottom call.line log) ≠ some name) :
    e.owner = call.owner ∧ (∀ entry ∈ log, entry.isGrant = false) ∧
      ∃ entropy, last = start.stir entropy := by
  cases close with
  | spared owner none => exact ⟨owner, none, _, rfl⟩
  | changed _ _ _ _ _ _ _ good _ =>
    rw [good] at fails
    cases fails
  | paired _ command pairs _ _ _ => exact absurd command (other _ pairs)

/-- A line that fails after a wait has waited for input, and read it. -/
theorem Resumes.spared_of_failed {wait : Wait} {later : Workspace}
    (resumes : Resumes call wait later e last log) (fails : e.evaluation.failed = true)
    (other : ∀ name ∈ pairing, command? (bottom call.line log) ≠ some name) :
    e.owner = call.owner ∧ (∀ entry ∈ log, entry.isGrant = false) ∧
      ∃ ticket entropy, wait = .input ticket ∧ last = (later.readInput ticket).2.stir entropy := by
  obtain ⟨owner, none, entropy, eq⟩ := resumes.close.spared_of_failed fails other
  cases wait with
  | input ticket => exact ⟨owner, none, ticket, entropy, rfl, eq⟩
  | time deadline =>
    rw [(resumes.rests rfl).1] at fails
    cases fails
  | batch id =>
    rw [(resumes.rests rfl).1] at fails
    cases fails

theorem Halts.input_eq {invoker : Option String} {ticket : Nat} {mid : Workspace}
    (halts : Halts invoker ws (.input ticket) mid) :
    ∃ entropy, mid = (ws.stir entropy).askInput.1 := by
  cases halts with
  | input entropy => exact ⟨entropy, rfl⟩

theorem Account.innocent {run : Run Ended} {book : Book Ended} {r : Finished Ended}
    (account : Account call ws run book) (ends : run.finish found = some r)
    (fails : r.value.evaluation.failed = true)
    (other : ∀ name ∈ pairing, command? (bottom call.line (book found).entries) ≠ some name) :
    Innocent call ws found run r.value (book found).entries := by
  have reading : ∀ (ws : Workspace) (ticket : Nat) (entropy : Entropy),
      ws.Spares ((ws.readInput ticket).2.stir entropy) ∧
        Workspace.taken (ws, (ws.readInput ticket).2.stir entropy) ≤ 1 := by
    intro ws ticket entropy
    refine ⟨(ws.spares_readInput ticket).trans (Workspace.spares_stir _ entropy), ?_⟩
    show ws.inputs.length - ws.inputs.tail.length ≤ 1
    rw [List.length_tail]
    omega
  have asking : ∀ (ws : Workspace) (entropy : Entropy), ws.Spares (ws.stir entropy).askInput.1 :=
    fun ws entropy => (ws.spares_stir entropy).trans (Workspace.spares_askInput _)
  cases account with
  | endless => cases ends
  | closes booked close =>
    obtain ⟨rfl, entries⟩ := booked
    rw [entries] at other ⊢
    cases ends
    obtain ⟨owner, none, entropy, rfl⟩ := close.spared_of_failed fails other
    refine ⟨owner, none, ?_, ?_⟩
    · simpa [Run.legs] using ws.spares_stir entropy
    · simp [Run.legs, Workspace.taken, Workspace.stir]
  | passes halts booked resumes =>
    obtain ⟨rfl, entries⟩ := booked
    rw [entries] at other ⊢
    cases ends
    obtain ⟨owner, none, ticket, entropy, rfl, rfl⟩ := resumes.spared_of_failed fails other
    obtain ⟨entropy', rfl⟩ := halts.input_eq
    obtain ⟨spares, once⟩ := reading (ws.stir entropy').askInput.1 ticket entropy
    refine ⟨owner, none, ?_, ?_⟩
    · simpa [Run.legs] using (asking ws entropy').trans spares
    · simp only [Run.legs, List.map_cons, List.map_nil, List.sum_cons, List.sum_nil]
      exact once
  | waits halts rest =>
    cases found with
    | nil => cases ends
    | cons later left =>
      obtain ⟨e, last, log, ⟨goesOn, entries⟩, resumes⟩ := rest later
      rw [Run.finish, goesOn] at ends
      rw [entries] at other ⊢
      cases ends
      obtain ⟨owner, none, ticket, entropy, rfl, rfl⟩ := resumes.spared_of_failed fails other
      obtain ⟨entropy', rfl⟩ := halts.input_eq
      obtain ⟨spares, once⟩ := reading later ticket entropy
      refine ⟨owner, none, ?_, ?_⟩
      · simp only [Run.legs, goesOn, List.forall_mem_cons]
        exact ⟨asking ws entropy', spares, by simp⟩
      · simp only [Run.legs, goesOn, List.map_cons, List.map_nil, List.sum_cons, List.sum_nil]
        have kept : Workspace.taken (ws, (ws.stir entropy').askInput.1) = 0 := Nat.sub_self _
        omega

end

/-- A line that fails has changed nothing, however deep the line is nested at which it went wrong,
unless that is a line of `position` or `screensize`, which set two variables. Its owner is as
before; nothing that would change variables, settings or the device was granted to it; and whenever
it had the workspace in its hands, it left variables, settings, the device and the scripts as they
were. At most one line of input is gone. -/
theorem failing_line_changes_nothing (depth : Nat) (mode : Mode) (line : String)
    (owner : Option Instance) (transcript : List Message) {ws last : Workspace}
    {found left : List Workspace} {e : Ended} (standard : ws.Standard)
    (ends : (evaluate depth mode line owner transcript ws).finish found = some ⟨e, last, left⟩)
    (fails : e.evaluation.failed = true)
    (other : command? (bottom line (journal depth ⟨mode, line, owner, transcript⟩ ws
      found).entries) ∉ [some "position", some "screensize"]) :
    e.owner = owner ∧
      (∀ entry ∈ (journal depth ⟨mode, line, owner, transcript⟩ ws found).entries,
        entry.isGrant = false) ∧
      (∀ leg ∈ (evaluate depth mode line owner transcript ws).legs ws found,
        leg.1.Spares leg.2) ∧
      (((evaluate depth mode line owner transcript ws).legs ws found).map
        Workspace.taken).sum ≤ 1 := by
  let call : Call := ⟨mode, line, owner, transcript⟩
  have account := evaluate_account depth call ws standard
  have innocent := account.innocent ends fails ?_
  · exact ⟨innocent.owner, innocent.none, innocent.spares, innocent.reads⟩
  · intro name pairs same
    apply other
    rw [same]
    exact List.mem_map_of_mem pairs

/-- A script that would keep what it reads under a name that no variable can have. -/
def miscalled : Instance :=
  .ofText "ask" "assign 1st readline" 0 0

/-- What it finds when there is input. -/
def answered : Workspace :=
  { Workspace.isolated with inputs := ["yes", "no"] }

theorem miscalled_changes_nothing :
    ∃ e last left,
      (evaluate 3 {} "assign 1st readline" (some miscalled) [] .isolated).finish [answered] =
        some ⟨e, last, left⟩ ∧
      (e.evaluation.failed = true ∧ last.inputs = ["no"]) ∧
      e.owner = some miscalled ∧
        (∀ entry ∈ (journal 3 ⟨{}, "assign 1st readline", some miscalled, []⟩ .isolated
          [answered]).entries, entry.isGrant = false) ∧
        (∀ leg ∈ (evaluate 3 {} "assign 1st readline" (some miscalled) [] .isolated).legs .isolated
          [answered], leg.1.Spares leg.2) ∧
        (((evaluate 3 {} "assign 1st readline" (some miscalled) [] .isolated).legs .isolated
          [answered]).map Workspace.taken).sum ≤ 1 := by
  have fails : ((evaluate 3 {} "assign 1st readline" (some miscalled) [] .isolated).finish
      [answered]).any (fun r => r.value.evaluation.failed && r.last.inputs == ["no"]) = true := by
    rw [answered, Workspace.isolated_eq]
    decide +kernel
  obtain ⟨⟨e, last, left⟩, ends, failed⟩ := (Option.any_eq_true _ _).mp fails
  obtain ⟨failed, read⟩ := Bool.and_eq_true_iff.mp failed
  have reached : bottom "assign 1st readline" (journal 3 ⟨{}, "assign 1st readline", some miscalled,
      []⟩ .isolated [answered]).entries = "readline" := by
    rw [answered, Workspace.isolated_eq]
    decide +kernel
  have reading : Line.read Registry.standard "readline" = .runs Builtin.readLine [] :=
    read_runs_of_builtin Registry.standard_holdsBuiltins "readline" (by simp [builtins])
      (by decide +kernel) (by decide +kernel) (by decide +kernel)
  have other : command? "readline" ∉ [some "position", some "screensize"] := by
    rw [(runs_of_read reading).command]
    decide
  exact ⟨e, last, left, ends, ⟨failed, eq_of_beq read⟩,
    failing_line_changes_nothing 3 {} "assign 1st readline" (some miscalled) []
      Workspace.isolated_standard ends failed (by rwa [reached])⟩

end Line

end LineScript
