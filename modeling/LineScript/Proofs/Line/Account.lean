import LineScript.Proofs.Line.Carry

/-!
# The account of a line

What a line of builtin commands does in all, told once. Its commands ask first and act once, so the
line, however deep lines are nested in it, waits at most once, and what it changes it changes with
its last request. `Line.Account` lists how a line can come to its end, with what it does to its
owner and to the workspace and what it leaves in its journal; `Line.evaluate_account` says that
every line over the builtin commands comes to one of these.
-/

namespace LineScript

namespace Line

/-! ## How a line ends -/

/-- How a line ends from some workspace on, and its entries. -/
inductive Close (call : Call) (start : Workspace) : Ended → Workspace → List Entry → Prop where
  /-- It has changed nothing. -/
  | spared {e : Ended} {entropy : Entropy} {log : List Entry} (owner : e.owner = call.owner)
      (none : ∀ entry ∈ log, entry.isGrant = false) : Close call start e (start.stir entropy) log
  /-- Its last request was to change something, and was granted. It has not failed, and it has
  responded nothing. -/
  | changed {e : Ended} {ctx : Context} {entropy : Entropy} {r : Request} {log : List Entry}
      {line name : String} (owner : ctx.owner = call.owner) (change : r.isChange = true)
      (command : command? line = some name) (suits : r.Suits name)
      (granted : r.verdict (ctx.answer (start.stir entropy) r).1 = .ok ())
      (after : e.owner = (ctx.answer (start.stir entropy) r).2.1.owner)
      (none : ∀ entry ∈ log, entry.isGrant = false) (good : e.evaluation.failed = false)
      (silent : e.evaluation.captured = "")
      (renews : r.Renews (Scope.visible? (call.owner.map (·.locals)) start.globals)) :
      Close call start e (ctx.answer (start.stir entropy) r).2.2
        (log ++ [⟨line, .asked r (ctx.answer (start.stir entropy) r).1⟩])
  /-- It came down to a command that sets two variables, and the first one was set. -/
  | paired {e : Ended} {ctx ctx' : Context} {entropy : Entropy} {target target' text text' : String}
      {log : List Entry} {name : String} (owner : ctx.owner = call.owner)
      (command : command? (bottom call.line log) = some name) (pairs : name ∈ pairing)
      (between : ctx'.owner =
        (ctx.answer (start.stir entropy) (.assign target (.text text))).2.1.owner)
      (after : e.owner =
        (ctx'.answer (ctx.answer (start.stir entropy) (.assign target (.text text))).2.2
          (.assign target' (.text text'))).2.1.owner) (silent : e.evaluation.captured = "")
      (texts : Textual log) :
      Close call start e
        (ctx'.answer (ctx.answer (start.stir entropy) (.assign target (.text text))).2.2
          (.assign target' (.text text'))).2.2 log

/-- How a line comes to its wait. -/
inductive Halts (invoker : Option String) (ws : Workspace) : Wait → Workspace → Prop where
  | time (entropy : Entropy) (deadline : Nat) : Halts invoker ws (.time deadline) (ws.stir entropy)
  | batch {entropy : Entropy} {names : List String} {started : Workspace.Started}
      {last : Workspace} (ok : (ws.stir entropy).startBatch invoker names = .ok (started, last)) :
      Halts invoker ws (.batch started.batch) last
  | input (entropy : Entropy) :
      Halts invoker ws (.input (ws.stir entropy).askInput.2) (ws.stir entropy).askInput.1

end Line

/-- Where a line goes on after its wait: with what it has read, if it has waited for input. -/
def Wait.resume (later : Workspace) : Wait → Workspace
  | .input ticket => (later.readInput ticket).2
  | _ => later

namespace Line

/-- How a line ends that goes on after a wait. It may set variables to texts and changes nothing
else any more, and unless it has waited for input there is nothing left for it to do. -/
structure Resumes (call : Call) (wait : Wait) (later : Workspace) (e : Ended) (last : Workspace)
    (log : List Entry) : Prop where
  close : Close call (wait.resume later) e last log
  texts : Textual log
  rests : wait.isForInput = false →
    e.evaluation.failed = false ∧ e.evaluation.captured = "" ∧ e.owner = call.owner ∧ last = later

/-- What a line does in all. -/
inductive Account (call : Call) (ws : Workspace) : Run Ended → Book Ended → Prop where
  | endless {book : Book Ended} (breaks : BreaksOff book) : Account call ws .endless book
  /-- It ends without a wait. -/
  | closes {run : Run Ended} {book : Book Ended} {e : Ended} {last : Workspace} {log : List Entry}
      (booked : Booked run book e last log) (close : Close call ws e last log) :
      Account call ws run book
  /-- What it would have waited for is there already. -/
  | passes {run : Run Ended} {book : Book Ended} {wait : Wait} {mid : Workspace} {e : Ended}
      {last : Workspace} {log : List Entry} (halts : Halts (call.owner.map (·.name)) ws wait mid)
      (booked : Booked run book e last log) (resumes : Resumes call wait mid e last log) :
      Account call ws run book
  /-- It waits, and ends after that. -/
  | waits {book : Book Ended} {wait : Wait} {mid : Workspace} {next : Workspace → Run Ended}
      (halts : Halts (call.owner.map (·.name)) ws wait mid)
      (rest : ∀ later, ∃ e last log,
        Booked (next later) (fun found => book (later :: found)) e last log ∧
          Resumes call wait later e last log) (breaks : BreaksOff book) :
      Account call ws (.await wait mid next) book

section

variable {call : Call} {ws start last : Workspace} {e : Ended} {log : List Entry}

/-- After a wait no variable is removed. -/
theorem Resumes.keeps {wait : Wait} {later : Workspace}
    (resumes : Resumes call wait later e last log) : ∀ entry ∈ log, entry.isRemoval = false :=
  fun _ mem => resumes.texts.isRemoval mem

theorem Close.of_stir {entropy : Entropy} (h : Close call (start.stir entropy) e last log) :
    Close call start e last log := by
  cases h with
  | spared owner none => exact .spared owner none
  | changed owner change command suits granted after none good silent renews =>
    exact .changed owner change command suits granted after none good silent renews
  | paired owner command pairs between after silent texts =>
    exact .paired owner command pairs between after silent texts

theorem Halts.of_stir {invoker : Option String} {entropy : Entropy} {wait : Wait}
    {mid : Workspace} (h : Halts invoker (ws.stir entropy) wait mid) :
    Halts invoker ws wait mid := by
  cases h with
  | time entropy deadline => exact .time entropy deadline
  | batch ok => exact .batch ok
  | input entropy => exact .input entropy

/-- The end of a line that comes to the same as another one, after some more entries. -/
theorem Close.lift {inner : Call} {e' : Ended} {before : List Entry}
    (h : Close inner start e last log) (mine : inner.owner = call.owner)
    (clean : ∀ entry ∈ before, entry.isGrant = false)
    (deepest : ∀ name ∈ pairing, command? (bottom inner.line log) = some name →
      command? (bottom call.line (before ++ log)) = some name)
    (owner : e'.owner = e.owner) (failed : e'.evaluation.failed = e.evaluation.failed)
    (captured : e.evaluation.captured = "" → e'.evaluation.captured = "") :
    Close call start e' last (before ++ log) := by
  have allClean : ∀ {log : List Entry}, (∀ entry ∈ log, entry.isGrant = false) →
      ∀ entry ∈ before ++ log, entry.isGrant = false := by
    intro log none entry mem
    rcases List.mem_append.mp mem with here | there
    · exact clean entry here
    · exact none entry there
  cases h with
  | spared same none => exact .spared (by rw [owner, same, mine]) (allClean none)
  | changed same change command suits granted after none good silent renews =>
    rw [← List.append_assoc]
    rw [mine] at renews
    exact .changed (same.trans mine) change command suits granted (owner.trans after)
      (allClean none) (failed.trans good) (captured silent) renews
  | paired same command pairs between after silent texts =>
    exact .paired (same.trans mine) (deepest _ pairs command) pairs between (owner.trans after)
      (captured silent) ((textual_of_clean clean).append texts)

/-- Plain entries may come before. -/
theorem Close.after_plain {before : List Entry} (plain : Plain before)
    (h : Close call start e last log) : Close call start e last (before ++ log) := by
  refine h.lift rfl (fun entry mem => (plain entry mem).1) ?_ rfl rfl id
  intro name _ command
  rw [bottom_plain_append plain, command]

/-- After an inquiry the line does what it does from there. -/
theorem Account.inquired {run : Run Ended} {book : Book Ended} {entropy : Entropy} {entry : Entry}
    (h : Account call (ws.stir entropy) run book) (plain : Plain [entry]) :
    Account call ws run (fun found => (book found).note entry) := by
  have goesOn : ∀ {wait later e last log}, Resumes call wait later e last log →
      Resumes call wait later e last (entry :: log) := by
    intro wait later e last log resumes
    have clean : ∀ other ∈ [entry], other.isGrant = false := fun other mem => (plain other mem).1
    exact ⟨resumes.close.after_plain plain, (textual_of_clean clean).append resumes.texts,
      resumes.rests⟩
  have clean := (plain entry (List.mem_singleton_self entry)).1
  cases h with
  | endless breaks => exact .endless (breaks.note clean)
  | closes booked close => exact .closes (booked.note entry) (close.of_stir.after_plain plain)
  | passes halts booked resumes =>
    exact .passes halts.of_stir (booked.note entry) (goesOn resumes)
  | waits halts rest breaks =>
    refine .waits halts.of_stir ?_ (breaks.note clean)
    intro later
    obtain ⟨e, last, log, booked, resumes⟩ := rest later
    exact ⟨e, last, entry :: log, booked.note entry, goesOn resumes⟩

/-- A line that has come to a wait goes on at once if there is nothing to wait for. -/
theorem Account.waitFor {wait : Wait} {mid : Workspace} {next : Workspace → Run Ended}
    {nextBook : Workspace → Book Ended} (halts : Halts (call.owner.map (·.name)) ws wait mid)
    (rest : ∀ later, ∃ e last log,
      Booked (next later) (nextBook later) e last log ∧ Resumes call wait later e last log) :
    Account call ws (Run.waitFor wait mid next)
      (fun found => Journal.waitFor wait mid found nextBook) := by
  unfold Run.waitFor Journal.waitFor
  by_cases elapsed : wait.isOver mid = true
  · simp only [if_pos elapsed]
    obtain ⟨e, last, log, booked, resumes⟩ := rest mid
    exact .passes halts booked resumes
  · simp only [if_neg elapsed]
    exact .waits halts rest (breaksOff_of_cut rfl)

/-- The line has come to nothing yet: its owner is as it was, and it has neither failed nor
responded anything. -/
structure Poised (call : Call) (ctx : Context) : Prop where
  owner : ctx.owner = call.owner
  line : ctx.line = call.line
  good : ctx.failed = false
  silent : ctx.parts = []

theorem poised_context (call : Call) : Poised call call.context :=
  ⟨rfl, rfl, rfl, rfl⟩

variable {ctx : Context} {schema : Schema} {name : String}

/-- A line that ends here has changed nothing. -/
theorem close_here (owner : e.owner = call.owner) (none : ∀ entry ∈ log, entry.isGrant = false) :
    Close call ws e ws log := by
  show Close call ws e (ws.stir ws.entropy) log
  exact .spared owner none

/-- A last request to change something, granted or refused. -/
theorem close_change {r : Request} (poised : Poised call ctx) (change : r.isChange = true)
    (command : command? call.line = some name) (suits : r.Suits name)
    (renews : r.Renews (Scope.visible? (call.owner.map (·.locals)) ws.globals)) (color : String) :
    Close call ws (leave schema color (r.verdict (ctx.answer ws r).1, (ctx.answer ws r).2.1))
      (ctx.answer ws r).2.2 [⟨ctx.line, .asked r (ctx.answer ws r).1⟩] := by
  cases verdict : r.verdict (ctx.answer ws r).1 with
  | error fault =>
    rw [Context.answer_refused verdict]
    apply close_here ((leave_owner _ _ _ _).trans poised.owner)
    intro entry mem
    rw [List.mem_singleton.mp mem]
    simp [Entry.isGrant, verdict, Except.isOk, Except.toBool]
  | ok _ =>
    have good : (ctx.answer ws r).2.1.failed = false := by
      rw [Context.answer_failed, poised.good, Request.isReport_of_isChange change, Bool.or_false]
    have silent :
        (leave schema color (.ok (), (ctx.answer ws r).2.1)).evaluation.captured = "" := by
      rw [leave_captured, Context.answer_parts, Request.respondTo_of_isChange change, poised.silent]
      rfl
    rw [poised.line]
    show Close call ws _ (ctx.answer (ws.stir ws.entropy) r).2.2
      ([] ++ [⟨call.line, .asked r (ctx.answer (ws.stir ws.entropy) r).1⟩])
    exact .changed poised.owner change command suits verdict (leave_owner _ _ _ _) (by simp) good
      silent renews

theorem close_jump (poised : Poised call ctx) (index : Nat) (color : String)
    (result : Except Fault Unit) :
    Close call ws (leave schema color (result, (ctx.answer ws (.jump index)).2.1))
      (ctx.answer ws (.jump index)).2.2
      [⟨ctx.line, .asked (.jump index) (ctx.answer ws (.jump index)).1⟩] := by
  have owner : (ctx.answer ws (.jump index)).2.1.owner = ctx.owner := by
    simp only [Context.answer, Context.goTo]
    split
    · split <;> rfl
    · rfl
  have same : (ctx.answer ws (.jump index)).2.2 = ws := rfl
  rw [same]
  apply close_here
  · rw [leave_owner, owner, poised.owner]
  · simp [Entry.isGrant, Request.isChange]

theorem close_pair {target target' text text' : String} (owner : ctx.owner = call.owner)
    (command : command? call.line = some name) (pairs : name ∈ pairing)
    (after : e.owner = ((ctx.answer ws (.assign target (.text text))).2.1.answer
      (ctx.answer ws (.assign target (.text text))).2.2 (.assign target' (.text text'))).2.1.owner)
    (silent : e.evaluation.captured = "") {reply reply' : Except AssignError Unit} :
    Close call ws e ((ctx.answer ws (.assign target (.text text))).2.1.answer
        (ctx.answer ws (.assign target (.text text))).2.2 (.assign target' (.text text'))).2.2
      [⟨ctx.line, .asked (.assign target (.text text)) reply⟩,
        ⟨ctx.line, .asked (.assign target' (.text text')) reply'⟩] := by
  have deepest : bottom call.line [⟨ctx.line, .asked (.assign target (.text text)) reply⟩,
      ⟨ctx.line, .asked (.assign target' (.text text')) reply'⟩] = call.line := rfl
  rw [← deepest] at command
  show Close call ws e (Context.answer _ (ctx.answer (ws.stir ws.entropy) _).2.2 _).2.2 _
  refine .paired owner command pairs rfl after silent ?_
  simp [Textual, Entry.setsText]

/-- Two variables, unless the first one is refused. -/
theorem account_pair {depth : Nat} {first text : String}
    {next : Except AssignError Unit → Ending} (poised : Poised call ctx)
    (command : command? call.line = some name) (pairs : name ∈ pairing)
    (second : (next (.ok ())).Assigns)
    (refused : ∀ e, next (.error e) = .done (.error (.assign e))) :
    Account call ws (carry schema depth (.ask (.assign first (.text text)) next) ctx ws)
      (carryBook schema depth (.ask (.assign first (.text text)) next) ctx ws) := by
  cases reply : (ctx.assign ws first (.text text)).1 with
  | error e =>
    have ends : next (ctx.answer ws (.assign first (.text text))).1 =
        .done (Request.verdict (.assign first (.text text))
          (ctx.answer ws (.assign first (.text text))).1) := by
      show next (ctx.assign ws first (.text text)).1 =
        .done (Except.mapError Fault.assign (ctx.assign ws first (.text text)).1)
      rw [reply, refused]
      rfl
    exact .closes (carry_ask_done ends)
      (close_change (r := .assign first (.text text)) poised rfl command trivial trivial _)
  | ok _ =>
    generalize goesOn : next (.ok ()) = rest at second
    obtain ⟨ends⟩ := second
    rename_i target text' next'
    have granted : next (ctx.answer ws (.assign first (.text text))).1 =
        .ask (.assign target (.text text')) next' := by
      show next (ctx.assign ws first (.text text)).1 = _
      rw [reply]
      exact goesOn
    apply Account.closes (carry_ask_ask granted ends)
    apply close_pair poised.owner command pairs (leave_owner _ _ _ _)
    rw [leave_captured, Context.answer_parts, Request.respondTo_of_isChange rfl,
      Context.answer_parts, Request.respondTo_of_isChange rfl, poised.silent]
    rfl

/-- A line that has nothing left to do after its wait. -/
theorem resumes_done {wait : Wait} (poised : Poised call ctx) (other : wait.isForInput = false)
    (color : String) (later : Workspace) :
    Resumes call wait later (leave schema color (.ok (), ctx)) later [] where
  close := by
    have same : wait.resume later = later := by
      cases wait with
      | input ticket => cases other
      | _ => rfl
    rw [same]
    exact close_here poised.owner (by simp)
  texts := textual_of_clean (by simp)
  rests := by
    intro _
    refine ⟨poised.good, ?_, poised.owner, rfl⟩
    rw [leave_captured, poised.silent]
    rfl

theorem account_sleep {depth : Nat} (poised : Poised call ctx) (duration : Duration) :
    Account call ws (carry schema depth (.sleep duration (.done (.ok ()))) ctx ws)
      (carryBook schema depth (.sleep duration (.done (.ok ()))) ctx ws) := by
  unfold carry carryBook
  simp only [perform, record, Run.waitFor_bind, Journal.waitFor_bind]
  apply Account.waitFor (.time ws.entropy _)
  intro later
  exact ⟨_, later, [], booked_done _ later, resumes_done poised rfl _ later⟩

theorem account_start {depth : Nat} {names : List String} {next : Except StartError Unit → Ending}
    (poised : Poised call ctx) (ends : ∀ result, next result = .done (result.mapError .start)) :
    Account call ws (carry schema depth (.runScripts names next) ctx ws)
      (carryBook schema depth (.runScripts names next) ctx ws) := by
  unfold carry carryBook
  simp only [perform, record]
  cases outcome : ws.startBatch (ctx.owner.map (·.name)) names with
  | error e =>
    simp only [ends]
    exact .closes (booked_done _ ws)
      (close_here ((leave_owner _ _ _ _).trans poised.owner) (by simp))
  | ok result =>
    obtain ⟨started, mid⟩ := result
    simp only [ends, Run.waitFor_bind, Journal.waitFor_bind]
    rw [poised.owner] at outcome
    have halts : Halts (call.owner.map (·.name)) ws (.batch started.batch) mid := by
      apply Halts.batch
      show (ws.stir ws.entropy).startBatch _ names = _
      exact outcome
    apply Account.waitFor halts
    intro later
    exact ⟨_, later, [], booked_done _ later, resumes_done poised rfl _ later⟩

theorem account_read {depth : Nat} {next : Option String → Ending} (poised : Poised call ctx)
    (ends : ∀ line, (∃ fault, next line = .done (.error fault)) ∨ (next line).Remarks) :
    Account call ws (carry schema depth (.readInput next) ctx ws)
      (carryBook schema depth (.readInput next) ctx ws) := by
  unfold carry carryBook
  simp only [perform, record, Run.waitFor_bind, Journal.waitFor_bind]
  apply Account.waitFor (.input ws.entropy)
  intro later
  obtain ⟨e, log, booked, owner, plain⟩ :=
    carry_verdict (ends (later.readInput ws.askInput.2).1) ctx (later.readInput ws.askInput.2).2
  refine ⟨e, (later.readInput ws.askInput.2).2, log, booked, ?_, ?_, ?_⟩
  · exact close_here (owner.trans poised.owner) fun entry mem => (plain entry mem).1
  · exact textual_of_clean fun entry mem => (plain entry mem).1
  · intro calm
    cases calm

/-! ### A nested line -/

/-- A variable that is set after a line which has changed nothing. -/
theorem close_assigned {entropy : Entropy} {target text : String} {before : List Entry}
    (poised : Poised call ctx) (command : command? call.line = some name) (nests : name ∈ nesting)
    (clean : ∀ entry ∈ before, entry.isGrant = false) {color : String} :
    let answer := ctx.answer (start.stir entropy) (.assign target (.text text))
    Close call start
      (leave schema color (Request.verdict (.assign target (.text text)) answer.1, answer.2.1))
      answer.2.2
      (before ++ [⟨ctx.line, .asked (.assign target (.text text)) answer.1⟩]) := by
  intro answer
  have close : Close call (start.stir entropy)
      (leave schema color (Request.verdict (.assign target (.text text)) answer.1, answer.2.1))
      answer.2.2
      [⟨ctx.line, .asked (.assign target (.text text)) answer.1⟩] :=
    close_change (r := .assign target (.text text)) poised rfl command trivial trivial color
  refine close.of_stir.lift rfl clean ?_ rfl rfl id
  intro other pairs deepest
  -- The command that sets it is not one of those that set two.
  have same : some name = some other := command.symm.trans deepest
  cases same
  exact absurd pairs (not_mem_pairing_of_mem_nesting nests)

/-- What a command does after the line that it has evaluated: it sets a variable only if that line
has changed nothing. -/
theorem close_nest {depth : Nat} {code : String} {quiet : Bool} {next : Evaluation → Ending}
    (poised : Poised call ctx) (command : command? call.line = some name) (nests : name ∈ nesting)
    (follows : (next e.evaluation).Follows e.evaluation)
    (close : Close (nestedCall ctx code quiet) start e last log) :
    ∃ e' last' log',
      Booked (carry schema depth (next e.evaluation)
          (ctx.afterNested e.evaluation e.owner e.transcript) last)
        (carryBook schema depth (next e.evaluation)
          (ctx.afterNested e.evaluation e.owner e.transcript) last) e' last' log' ∧
      Close call start e' last' ((⟨ctx.line, .evaluated code⟩ :: log) ++ log') ∧
      Textual log' ∧
      (e.evaluation.captured = "" → e'.owner = e.owner ∧
        e'.evaluation.failed = e.evaluation.failed ∧ e'.evaluation.captured = "" ∧
        last' = last) := by
  have clean : Entry.isGrant ⟨ctx.line, .evaluated code⟩ = false := rfl
  rcases follows with done | ⟨good, responded, assigns⟩
  · rw [done]
    have failed : (leave schema last.config.errorColor
        (.ok (), ctx.afterNested e.evaluation e.owner e.transcript)).evaluation.failed =
        e.evaluation.failed := by
      show (ctx.failed || e.evaluation.failed) = e.evaluation.failed
      rw [poised.good, Bool.false_or]
    have silent : (leave schema last.config.errorColor
        (.ok (), ctx.afterNested e.evaluation e.owner e.transcript)).evaluation.captured = "" := by
      rw [leave_captured, Context.afterNested, poised.silent]
      rfl
    refine ⟨_, last, [], carry_done _, ?_, textual_of_clean (by simp),
      fun _ => ⟨rfl, failed, silent, rfl⟩⟩
    rw [List.append_nil]
    show Close call start _ last ([⟨ctx.line, .evaluated code⟩] ++ log)
    refine close.lift poised.owner (by simpa using clean) ?_ rfl failed fun _ => silent
    intro name _ deepest
    rw [poised.line, List.singleton_append, bottom_evaluated]
    exact deepest
  · cases close with
    | changed _ _ _ _ _ _ _ _ silent _ => exact absurd silent responded
    | paired _ _ _ _ _ silent _ => exact absurd silent responded
    | spared owner none =>
      rename_i entropy
      generalize next e.evaluation = action at assigns
      obtain ⟨ends⟩ := assigns
      have ready : Poised call (ctx.afterNested e.evaluation e.owner e.transcript) :=
        ⟨owner.trans poised.owner, poised.line, by simp [Context.afterNested, poised.good, good],
          poised.silent⟩
      refine ⟨_, _, _, carry_ask_done (ends _), ?_, ?_, fun silent => absurd silent responded⟩
      · apply close_assigned ready command nests
        intro entry mem
        rcases List.mem_cons.mp mem with rfl | there
        · exact clean
        · exact none entry there
      · simp [Textual, Entry.setsText]

theorem Resumes.nest {depth : Nat} {code : String} {quiet : Bool} {next : Evaluation → Ending}
    {wait : Wait} {later : Workspace} (poised : Poised call ctx)
    (command : command? call.line = some name) (nests : name ∈ nesting)
    (follows : (next e.evaluation).Follows e.evaluation)
    (resumes : Resumes (nestedCall ctx code quiet) wait later e last log) :
    ∃ e' last' log',
      Booked (carry schema depth (next e.evaluation)
          (ctx.afterNested e.evaluation e.owner e.transcript) last)
        (carryBook schema depth (next e.evaluation)
          (ctx.afterNested e.evaluation e.owner e.transcript) last) e' last' log' ∧
      Resumes call wait later e' last' ((⟨ctx.line, .evaluated code⟩ :: log) ++ log') := by
  obtain ⟨e', last', log', booked, close, texts, same⟩ :=
    close_nest poised command nests follows resumes.close
  have here : Textual [⟨ctx.line, .evaluated code⟩] :=
    textual_of_clean (by simp [Entry.isGrant])
  refine ⟨e', last', log', booked, close, (here.append resumes.texts).append texts, ?_⟩
  · intro other
    obtain ⟨good, silent, owner, here⟩ := resumes.rests other
    obtain ⟨owner', failed', silent', last'⟩ := same silent
    exact ⟨failed'.trans good, silent', (owner'.trans owner).trans poised.owner, last'.trans here⟩

theorem account_nest {depth : Nat} {code : String} {quiet : Bool} {next : Evaluation → Ending}
    (poised : Poised call ctx) (command : command? call.line = some name) (nests : name ∈ nesting)
    (follows : ∀ e, (next e).Follows e)
    (inner : Account (nestedCall ctx code quiet) ws
      ((nestedCall ctx code quiet).evaluate (evaluate depth) ws)
      (journal depth (nestedCall ctx code quiet) ws)) :
    Account call ws (carry schema depth (.evaluate code quiet next) ctx ws)
      (carryBook schema depth (.evaluate code quiet next) ctx ws) := by
  have run : carry schema depth (.evaluate code quiet next) ctx ws =
      ((nestedCall ctx code quiet).evaluate (evaluate depth) ws).bind fun e ws =>
        carry schema depth (next e.evaluation)
          (ctx.afterNested e.evaluation e.owner e.transcript) ws :=
    Run.bind_bind _ _ _
  have book : carryBook schema depth (.evaluate code quiet next) ctx ws = fun found =>
      ((journal depth (nestedCall ctx code quiet) ws found).bind fun e ws found =>
        carryBook schema depth (next e.evaluation)
          (ctx.afterNested e.evaluation e.owner e.transcript) ws found).note
        ⟨ctx.line, .evaluated code⟩ := by
    funext found
    unfold carryBook
    rw [record, Journal.note_bind, Journal.bind_bind]
  have owner : (nestedCall ctx code quiet).owner.map (·.name) = call.owner.map (·.name) :=
    congrArg (Option.map (·.name)) poised.owner
  rw [run, book]
  generalize (nestedCall ctx code quiet).evaluate (evaluate depth) ws = innerRun at inner ⊢
  generalize journal depth (nestedCall ctx code quiet) ws = innerBook at inner ⊢
  have clean : Entry.isGrant ⟨ctx.line, .evaluated code⟩ = false := rfl
  cases inner with
  | endless breaks => exact .endless ((breaks.bind _).note clean)
  | closes booked close =>
    obtain ⟨e', last', log', after, closes, -⟩ :=
      close_nest poised command nests (follows _) close
    exact .closes ((booked.bind after).note _) closes
  | passes halts booked resumes =>
    obtain ⟨e', last', log', after, goesOn⟩ := resumes.nest poised command nests (follows _)
    rw [owner] at halts
    exact .passes halts ((booked.bind after).note _) goesOn
  | waits halts rest breaks =>
    rw [owner] at halts
    refine .waits halts ?_ ((breaks.bind _).note clean)
    intro later
    obtain ⟨e, last, log, booked, resumes⟩ := rest later
    obtain ⟨e', last', log', after, goesOn⟩ := resumes.nest poised command nests (follows _)
    exact ⟨e', last', _, (booked.bind after).note _, goesOn⟩

/-! ### All of it -/

/-- The line of a command that has only its last thing left to do. -/
theorem account_final {depth : Nat} {action : Ending} (standard : ws.Standard)
    (inner : ∀ call ws, ws.Standard →
      Account call ws (call.evaluate (evaluate depth) ws) (journal depth call ws))
    (poised : Poised call ctx) (command : command? call.line = some name)
    (final : Action.Final name (Scope.visible? (call.owner.map (·.locals)) ws.globals) action) :
    Account call ws (carry schema depth action ctx ws) (carryBook schema depth action ctx ws) := by
  cases final with
  | fault fault =>
    exact .closes (carry_done _) (close_here ((leave_owner _ _ _ _).trans poised.owner) (by simp))
  | remarks remarks =>
    obtain ⟨e, log, booked, owner, plain⟩ := carry_remarks remarks ctx ws
    exact .closes booked
      (close_here (owner.trans poised.owner) fun entry mem => (plain entry mem).1)
  | jump ends => exact .closes (carry_ask_done (ends _)) (close_jump poised _ _ _)
  | change change suits renews ends =>
    exact .closes (carry_ask_done (ends _)) (close_change poised change command suits renews _)
  | pair pairs second refused => exact account_pair poised command pairs second refused
  | sleep _ => exact account_sleep poised _
  | start _ ends => exact account_start poised ends
  | read _ ends => exact account_read poised ends
  | nest nests follows =>
    exact account_nest poised command nests follows (inner _ ws standard)

/-- The inquiries before it change nothing. -/
theorem account_resolves {depth : Nat} {action : Ending} (standard : ws.Standard)
    (inner : ∀ call ws, ws.Standard →
      Account call ws (call.evaluate (evaluate depth) ws) (journal depth call ws))
    (poised : Poised call ctx) (command : command? call.line = some name)
    (resolves : action.Resolves name call.owner
      (Scope.visible? (call.owner.map (·.locals)) ws.globals)) :
    Account call ws (carry schema depth action ctx ws) (carryBook schema depth action ctx ws) := by
  induction action generalizing ws with
  | ask r next ih =>
    rw [Action.Resolves] at resolves
    split at resolves
    · rename_i inquiry
      obtain ⟨entropy, same⟩ := ctx.answer_inquiry inquiry ws
      have faithful := faithful_answer poised.owner ws r
      have after : (ws.stir entropy).Standard := ⟨standard.registry_eq⟩
      have rest := ih _ after (resolves _ faithful)
      have run : carry schema depth (.ask r next) ctx ws =
          carry schema depth (next (ctx.answer ws r).1) ctx (ws.stir entropy) := by
        show carry schema depth (next (ctx.answer ws r).1) (ctx.answer ws r).2.1
          (ctx.answer ws r).2.2 = _
        rw [same]
      rw [run, carryBook_ask, same]
      exact rest.inquired (.asked (Request.isChange_of_isInquiry inquiry) _ _)
    · exact account_final standard inner poised command resolves
  | _ => exact account_final standard inner poised command resolves

end

/-- What a line of builtin commands does in all, by induction on how deep lines may be nested. -/
theorem evaluate_account (depth : Nat) (call : Call) (ws : Workspace) (standard : ws.Standard) :
    Account call ws (call.evaluate (evaluate depth) ws) (journal depth call ws) := by
  induction depth generalizing call ws with
  | zero => exact .endless (breaksOff_of_cut rfl)
  | succ depth ih =>
    simp only [Call.evaluate, evaluate_succ]
    unfold journal recordLine
    simp only [standard.registry_eq]
    cases reading : read Registry.standard call.line with
    | idle => exact .closes (booked_done _ ws) (close_here rfl (by simp))
    | unknown name => exact .closes (booked_done _ ws) (close_here rfl (by simp))
    | runs c args =>
      obtain ⟨name, -, known⟩ := find?_of_read_runs reading
      have command : command? call.line = some c.schema.name := (runs_of_read reading).command
      have resolves : ∀ look, Action.Resolves c.schema.name call.owner look (c.run args).run :=
        fun look => Registry.resolves_of_find? known call.owner look args
      show Account call ws (carry c.schema depth (c.run args).run call.context ws)
        (carryBook c.schema depth (c.run args).run call.context ws)
      exact account_resolves standard ih (poised_context call) command (resolves _)

end Line

end LineScript
