import LineScript.Proofs.Command.Resolve
import LineScript.Proofs.Line.Descent
import LineScript.Proofs.Line.Seclusion

/-!
# A line and its journal, side by side

What is left of a line when its command has an action left (`Line.carry`), and what is left of its
journal then (`Line.carryBook`). If the action only makes requests, both are over at once, and
`Line.Booked` says with which value, in which workspace and with which entries.

Requests are answered in three ways: inquiries change nothing but what is drawn next, remarks
nothing but what was said, and a change that is refused nothing at all.
-/

namespace LineScript

/-! ## Entries -/

namespace Entry

/-- Something was changed. -/
def isGrant (entry : Entry) : Bool :=
  match entry.deed with
  | .asked r reply => r.isChange && (r.verdict reply).isOk
  | .evaluated _ => false

/-- A variable was removed. -/
def isRemoval (entry : Entry) : Bool :=
  match entry.deed with
  | .asked (.remove _) _ => true
  | .asked (.removeGlobal _) _ => true
  | _ => false

/-- To remove a variable is always granted. -/
theorem isRemoval_of_isGrant {entry : Entry} (refused : entry.isGrant = false) :
    entry.isRemoval = false := by
  obtain ⟨line, deed⟩ := entry
  cases deed with
  | asked r reply =>
    cases r with
    | remove name => cases refused
    | removeGlobal name => cases refused
    | _ => rfl
  | evaluated code => rfl

/-- A variable was set to a text. -/
def setsText (entry : Entry) : Bool :=
  match entry.deed with
  | .asked (.assign _ (.text _)) _ => true
  | _ => false

theorem isRemoval_of_setsText {entry : Entry} (text : entry.setsText = true) :
    entry.isRemoval = false := by
  unfold setsText at text
  split at text
  · rename_i deed
    simp only [isRemoval, deed]
  · cases text

end Entry

/-- Nothing was changed but that variables were set to texts. -/
def Textual (log : List Entry) : Prop :=
  ∀ entry ∈ log, entry.isGrant = true → entry.setsText = true

section

variable {log log' : List Entry}

theorem textual_of_clean (none : ∀ entry ∈ log, entry.isGrant = false) : Textual log := by
  intro entry mem grant
  rw [none entry mem] at grant
  cases grant

theorem Textual.append (first : Textual log) (second : Textual log') : Textual (log ++ log') := by
  intro entry mem
  rcases List.mem_append.mp mem with here | there
  · exact first entry here
  · exact second entry there

theorem Textual.isRemoval (h : Textual log) {entry : Entry} (mem : entry ∈ log) :
    entry.isRemoval = false := by
  cases grant : entry.isGrant with
  | false => exact Entry.isRemoval_of_isGrant grant
  | true => exact Entry.isRemoval_of_setsText (h entry mem grant)

end

/-- Nothing was changed, and no line evaluated. -/
def Plain (log : List Entry) : Prop :=
  ∀ entry ∈ log, entry.isGrant = false ∧ entry.nested? = none

theorem Plain.nil : Plain [] := by
  intro entry mem
  cases mem

theorem Plain.append {log log' : List Entry} (first : Plain log) (second : Plain log') :
    Plain (log ++ log') := by
  intro entry mem
  rcases List.mem_append.mp mem with here | there
  · exact first entry here
  · exact second entry there

theorem Plain.asked {r : Request} (other : r.isChange = false) (line : String) (reply : r.Reply) :
    Plain [⟨line, .asked r reply⟩] := by
  intro entry mem
  rw [List.mem_singleton.mp mem]
  exact ⟨by simp [Entry.isGrant, other], rfl⟩

namespace Line

/-- The line that was evaluated last, in the depth of a line with these entries. -/
def bottom (line : String) (log : List Entry) : String :=
  (log.filterMap Entry.nested?).getLastD line

theorem nested_of_plain {log : List Entry} (plain : Plain log) :
    log.filterMap Entry.nested? = [] :=
  List.filterMap_eq_nil_iff.mpr fun entry mem => (plain entry mem).2

theorem bottom_plain_append {before : List Entry} (plain : Plain before) (line : String)
    (log : List Entry) : bottom line (before ++ log) = bottom line log := by
  rw [bottom, bottom, List.filterMap_append, nested_of_plain plain, List.nil_append]

theorem bottom_evaluated (line code : String) (log : List Entry) :
    bottom line (⟨line, .evaluated code⟩ :: log) = bottom code log := by
  have here : Entry.nested? ⟨line, .evaluated code⟩ = some code := rfl
  rw [bottom, bottom, List.filterMap_cons, here, List.getLastD_cons]

end Line

/-! ## Answers -/

namespace Context

/-- An inquiry changes nothing but what is drawn next. -/
theorem answer_inquiry {name : String} {owner : Option Instance} {r : Request}
    (inquiry : r.isInquiry name owner = true) (ctx : Context) (ws : Workspace) :
    ∃ entropy, (ctx.answer ws r).2 = (ctx, ws.stir entropy) := by
  cases r with
  | draw bound => exact ⟨_, rfl⟩
  | write _ _ | respond _ _ | report _ | clearScreen | jump _ | isPseudo | assign _ _ | update _ _
    | remove _ | assignGlobal _ _ | removeGlobal _ | act _ | setTypingSpeed _ => cases inquiry
  | _ => exact ⟨ws.entropy, rfl⟩

/-- A command that does not draw random numbers changes nothing at all by its inquiries. -/
theorem answer_inquiry_of_not_drawing {name : String} {owner : Option Instance} {r : Request}
    (inquiry : r.isInquiry name owner = true) (other : name ∉ drawing) (ctx : Context)
    (ws : Workspace) : (ctx.answer ws r).2 = (ctx, ws) := by
  cases r with
  | draw bound => exact absurd (of_decide_eq_true inquiry) other
  | write _ _ | respond _ _ | report _ | clearScreen | jump _ | isPseudo | assign _ _ | update _ _
    | remove _ | assignGlobal _ _ | removeGlobal _ | act _ | setTypingSpeed _ => cases inquiry
  | _ => rfl

theorem assign_refused {ctx : Context} {ws : Workspace} {name : String} {value : Value}
    {e : AssignError} (refused : (ctx.assign ws name value).1 = .error e) :
    (ctx.assign ws name value).2 = (ctx, ws) := by
  unfold assign at refused ⊢
  split at refused
  · split at refused
    · cases refused
    · rfl
  · split at refused
    · cases refused
    · rfl

theorem assignGlobal_refused {ctx : Context} {ws : Workspace} {name : String} {value : Value}
    {e : AssignError} (refused : (ctx.assignGlobal ws name value).1 = .error e) :
    (ctx.assignGlobal ws name value).2 = (ctx, ws) := by
  unfold assignGlobal at refused ⊢
  split at refused
  · cases refused
  · rfl

theorem update_refused {ctx : Context} {ws : Workspace} {name : String} {value : Value}
    {e : AssignError} (refused : (ctx.update ws name value).1 = .error e) :
    (ctx.update ws name value).2 = (ctx, ws) := by
  unfold update at refused ⊢
  dsimp only at refused ⊢
  split
  · rename_i here
    rw [if_pos here] at refused
    exact assignGlobal_refused refused
  · rename_i elsewhere
    rw [if_neg elsewhere] at refused
    exact assign_refused refused

/-- A change that is refused leaves everything as it was. -/
theorem answer_refused {ctx : Context} {ws : Workspace} {r : Request} {fault : Fault}
    (refused : r.verdict (ctx.answer ws r).1 = .error fault) : (ctx.answer ws r).2 = (ctx, ws) := by
  have isError : ∀ {ε : Type} {f : ε → Fault} {x : Except ε Unit},
      x.mapError f = .error fault → ∃ e, x = .error e := by
    intro ε f x mapped
    cases x with
    | ok _ => cases mapped
    | error e => exact ⟨e, rfl⟩
  cases r with
  | assign name value =>
    obtain ⟨e, error⟩ := isError refused
    exact assign_refused error
  | assignGlobal name value =>
    obtain ⟨e, error⟩ := isError refused
    exact assignGlobal_refused error
  | update name value =>
    obtain ⟨e, error⟩ := isError refused
    exact update_refused error
  | act a =>
    obtain ⟨e, error⟩ := isError refused
    simp only [answer, Device.perform] at error ⊢
    split at error
    · rfl
    · cases error
  | _ => cases refused

end Context

/-- What a line answers is the truth, about its variables too. -/
theorem Line.faithful_answer {ctx : Context} {owner : Option Instance} (same : ctx.owner = owner)
    (ws : Workspace) (r : Request) :
    r.Faithful owner (Scope.visible? (owner.map (·.locals)) ws.globals) (ctx.answer ws r).1 := by
  refine ⟨truthful_answer (congrArg (Option.map Instance.fixed) same) ws r, ?_⟩
  subst same
  cases r <;> first | exact trivial | rfl

theorem Request.isReport_of_isChange {r : Request} (change : r.isChange = true) :
    r.isReport = false := by
  cases r <;> simp_all [isChange, isReport]

theorem Request.respondTo_of_isChange {r : Request} (change : r.isChange = true)
    (parts : List String) : r.respondTo parts = parts := by
  cases r <;> simp_all [isChange, respondTo]

theorem Journal.note_bind {α β : Type} (entry : Entry) (j : Journal α)
    (f : α → Workspace → List Workspace → Journal β) :
    (j.note entry).bind f = (j.bind f).note entry := by
  unfold bind note
  cases j.result <;> rfl

theorem Journal.bind_bind {α β γ : Type} (j : Journal α)
    (f : α → Workspace → List Workspace → Journal β)
    (g : β → Workspace → List Workspace → Journal γ) :
    (j.bind f).bind g = j.bind fun value ws found => (f value ws found).bind g := by
  unfold bind
  cases j.result with
  | none => rfl
  | some r =>
    dsimp only
    cases (f r.value r.last r.left).result <;> simp

theorem Journal.waitFor_bind {α β : Type} (wait : Wait) (ws : Workspace) (found : List Workspace)
    (next : Workspace → List Workspace → Journal α)
    (f : α → Workspace → List Workspace → Journal β) :
    (waitFor wait ws found next).bind f =
      waitFor wait ws found fun ws found => (next ws found).bind f := by
  unfold waitFor
  split
  · rfl
  · cases found <;> rfl

theorem Run.waitFor_bind {α β : Type} (wait : Wait) (ws : Workspace) (next : Workspace → Run α)
    (f : α → Workspace → Run β) :
    (waitFor wait ws next).bind f = waitFor wait ws fun ws => (next ws).bind f := by
  unfold waitFor
  split <;> rfl

namespace Line

/-! ## Runs and journals that are over -/

/-- A journal, for whatever is found after waits. -/
abbrev Book (α : Type) := List Workspace → Journal α

section Booked

variable {α β : Type} {run : Run α} {book : Book α} {value : α} {last : Workspace}
  {log : List Entry}

/-- The run is over, and its journal has these entries. -/
structure Booked (run : Run α) (book : Book α) (value : α) (last : Workspace)
    (log : List Entry) : Prop where
  run_eq : run = .done value last
  book_eq : ∀ found, book found = ⟨log, some ⟨value, last, found⟩⟩

theorem booked_done (value : α) (ws : Workspace) :
    Booked (.done value ws) (Journal.done value ws) value ws [] :=
  ⟨rfl, fun _ => rfl⟩

theorem Booked.note (h : Booked run book value last log) (entry : Entry) :
    Booked run (fun found => (book found).note entry) value last (entry :: log) where
  run_eq := h.run_eq
  book_eq found := by rw [h.book_eq, Journal.note]

theorem Booked.bind {f : α → Workspace → Run β} {g : α → Workspace → Book β} {value' : β}
    {last' : Workspace} {log' : List Entry} (h : Booked run book value last log)
    (rest : Booked (f value last) (g value last) value' last' log') :
    Booked (run.bind f) (fun found => (book found).bind g) value' last' (log ++ log') where
  run_eq := by
    rw [h.run_eq]
    exact rest.run_eq
  book_eq found := by
    rw [h.book_eq]
    simp only [Journal.bind, rest.book_eq]

/-- The journal breaks off at a wait, and nothing was changed before that. -/
def BreaksOff (book : Book α) : Prop :=
  ∃ log, book [] = ⟨log, none⟩ ∧ ∀ entry ∈ log, entry.isGrant = false

theorem breaksOff_of_cut (cut : book [] = .cut) : BreaksOff book :=
  ⟨[], cut, by simp⟩

theorem BreaksOff.note (h : BreaksOff book) {entry : Entry} (clean : entry.isGrant = false) :
    BreaksOff fun found => (book found).note entry := by
  obtain ⟨log, here, none⟩ := h
  refine ⟨entry :: log, congrArg (Journal.note entry) here, ?_⟩
  intro other mem
  rcases List.mem_cons.mp mem with rfl | there
  · exact clean
  · exact none other there

theorem BreaksOff.bind (h : BreaksOff book) (g : α → Workspace → Book β) :
    BreaksOff fun found => (book found).bind g := by
  obtain ⟨log, here, none⟩ := h
  exact ⟨log, congrArg (Journal.bind · g) here, none⟩

end Booked

/-! ## From an action to the end of its line -/

section Carry

variable (schema : Schema) (depth : Nat)

/-- The line of a command that has this action left. -/
def carry (action : Ending) (ctx : Context) (ws : Workspace) : Run Ended :=
  (perform (evaluate depth) action ctx ws).bind fun result ws =>
    .done (leave schema ws.config.errorColor result) ws

/-- The journal of such a line. -/
def carryBook (action : Ending) (ctx : Context) (ws : Workspace) : Book Ended := fun found =>
  (record (journal depth) action ctx ws found).bind fun result ws found =>
    .done (leave schema ws.config.errorColor result) ws found

variable {schema depth} {ctx : Context} {ws : Workspace}

theorem carry_done (result : Except Fault Unit) :
    Booked (carry schema depth (.done result) ctx ws) (carryBook schema depth (.done result) ctx ws)
      (leave schema ws.config.errorColor (result, ctx)) ws [] :=
  ⟨rfl, fun _ => rfl⟩

theorem carryBook_ask (r : Request) (next : r.Reply → Ending) :
    carryBook schema depth (.ask r next) ctx ws = fun found =>
      (carryBook schema depth (next (ctx.answer ws r).1) (ctx.answer ws r).2.1
        (ctx.answer ws r).2.2 found).note ⟨ctx.line, .asked r (ctx.answer ws r).1⟩ :=
  funext fun _ => Journal.note_bind _ _ _

/-- After a request the line goes on with the reply. -/
theorem carry_ask {r : Request} {next : r.Reply → Ending} {e : Ended} {last : Workspace}
    {log : List Entry}
    (h : Booked (carry schema depth (next (ctx.answer ws r).1) (ctx.answer ws r).2.1
        (ctx.answer ws r).2.2)
      (carryBook schema depth (next (ctx.answer ws r).1) (ctx.answer ws r).2.1
        (ctx.answer ws r).2.2) e last log) :
    Booked (carry schema depth (.ask r next) ctx ws) (carryBook schema depth (.ask r next) ctx ws)
      e last (⟨ctx.line, .asked r (ctx.answer ws r).1⟩ :: log) := by
  rw [carryBook_ask]
  exact h.note _

/-- A last request. -/
theorem carry_ask_done {r : Request} {next : r.Reply → Ending} {result : Except Fault Unit}
    (ends : next (ctx.answer ws r).1 = .done result) :
    Booked (carry schema depth (.ask r next) ctx ws) (carryBook schema depth (.ask r next) ctx ws)
      (leave schema (ctx.answer ws r).2.2.config.errorColor (result, (ctx.answer ws r).2.1))
      (ctx.answer ws r).2.2 [⟨ctx.line, .asked r (ctx.answer ws r).1⟩] := by
  apply carry_ask
  rw [ends]
  exact carry_done result

/-- Two requests in a row. -/
theorem carry_ask_ask {r r' : Request} {next : r.Reply → Ending} {next' : r'.Reply → Ending}
    (goesOn : next (ctx.answer ws r).1 = .ask r' next')
    (ends : ∀ reply, next' reply = .done (r'.verdict reply)) :
    let mid := ctx.answer ws r
    let final := mid.2.1.answer mid.2.2 r'
    Booked (carry schema depth (.ask r next) ctx ws) (carryBook schema depth (.ask r next) ctx ws)
      (leave schema final.2.2.config.errorColor (r'.verdict final.1, final.2.1)) final.2.2
      [⟨ctx.line, .asked r mid.1⟩, ⟨ctx.line, .asked r' final.1⟩] := by
  intro mid final
  apply carry_ask
  rw [goesOn, ← Context.answer_line ctx ws r]
  exact carry_ask_done (ends _)

theorem leave_captured (schema : Schema) (color : String) (result : Except Fault Unit)
    (ctx : Context) : (leave schema color (result, ctx)).evaluation.captured =
      String.intercalate "\n" ctx.parts := by
  cases result <;> rfl

theorem leave_owner (schema : Schema) (color : String) (result : Except Fault Unit)
    (ctx : Context) : (leave schema color (result, ctx)).owner = ctx.owner := by
  cases result <;> rfl

/-- What is said leaves the owner and the workspace alone. -/
theorem answer_remark {r : Request} (remark : r.isRemark = true) (ctx : Context) (ws : Workspace) :
    (ctx.answer ws r).2.2 = ws ∧ (ctx.answer ws r).2.1.owner = ctx.owner ∧ r.isChange = false := by
  cases r with
  | write text style =>
    exact ⟨rfl, by simp [Context.answer, Context.write, Context.display_eq], rfl⟩
  | respond text style =>
    exact ⟨rfl, by simp [Context.answer, Context.respond, Context.display_eq], rfl⟩
  | clearScreen => exact ⟨rfl, rfl, rfl⟩
  | _ => cases remark

theorem carry_remarks {action : Ending} (remarks : action.Remarks) (ctx : Context)
    (ws : Workspace) :
    ∃ e log, Booked (carry schema depth action ctx ws) (carryBook schema depth action ctx ws) e ws
      log ∧ e.owner = ctx.owner ∧ Plain log := by
  induction action generalizing ctx ws with
  | done result =>
    exact ⟨_, [], carry_done result, leave_owner _ _ _ _, .nil⟩
  | ask r next ih =>
    obtain ⟨remark, rest⟩ := remarks
    obtain ⟨same, owner, other⟩ := answer_remark remark ctx ws
    obtain ⟨e, log, booked, mine, plain⟩ :=
      ih _ (rest _) (ctx.answer ws r).2.1 (ctx.answer ws r).2.2
    have here := carry_ask booked
    rw [same] at here
    exact ⟨e, _, here, mine.trans owner, (Plain.asked other _ _).append plain⟩
  | _ => exact remarks.elim

/-- So are they, or a fault, of a line that has read its input. -/
theorem carry_verdict {action : Ending}
    (ends : (∃ fault, action = .done (.error fault)) ∨ action.Remarks) (ctx : Context)
    (ws : Workspace) :
    ∃ e log, Booked (carry schema depth action ctx ws) (carryBook schema depth action ctx ws) e ws
      log ∧ e.owner = ctx.owner ∧ Plain log := by
  rcases ends with ⟨fault, rfl⟩ | remarks
  · exact ⟨_, [], carry_done _, leave_owner _ _ _ _, .nil⟩
  · exact carry_remarks remarks ctx ws

end Carry

end Line

end LineScript
