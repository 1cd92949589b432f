import LineScript.Proofs.Command.Voice
import LineScript.Proofs.Line.Kinds
import LineScript.Proofs.Line.Quiet
import LineScript.Proofs.Line.Report
import LineScript.Proofs.Line.Storage

/-!
# What a line shows and what is captured of it

What a line shows is said in one place and what is captured of it is kept in another, and the two
agree because a builtin command speaks in one voice. If it responds, each response is shown with a
line feed after it, and captured with line feeds between; if it writes, the text is shown and
captured as it is. `Line.Sounds` says this of a command on its way, and `Line.record_sounds`
carries it through its requests.

A command that evaluates a line adds nothing to what that line shows, and nothing is captured of it.
-/

namespace LineScript

/-- The request is a full response. -/
def Request.isResponse : Request → Bool
  | .respond .. => true
  | _ => false

/-- The command of the line has responded. -/
def Entry.isResponse (entry : Entry) : Bool :=
  match entry.deed with
  | .asked r _ => r.isResponse
  | .evaluated _ => false

/-- Runs that agree come to the end together. -/
theorem Run.Agrees.of_finish {α β : Type} {R : α → β → Prop} {run : Run α} {run' : Run β}
    {found : List Workspace} {r : Finished α} (h : run.Agrees R run')
    (ends : run.finish found = some r) :
    ∃ value, run'.finish found = some ⟨value, r.last, r.left⟩ ∧ R r.value value := by
  induction h generalizing found with
  | done related =>
    cases ends
    exact ⟨_, rfl, related⟩
  | await rest ih =>
    cases found with
    | nil => cases ends
    | cons later found => exact ih later ends
  | endless => cases ends

namespace Message

/-- The texts of the output among messages, one after the other. -/
def shown : List Message → String
  | [] => ""
  | .output text _ :: rest => text ++ shown rest
  | _ :: rest => shown rest

theorem shown_append (said more : List Message) :
    shown (said ++ more) = shown said ++ shown more := by
  induction said with
  | nil => simp [shown]
  | cons m rest ih => cases m <;> simp [shown, ih, String.append_assoc]

end Message

namespace Voice

/-- The responses of a command that has spoken in this voice. -/
def Fits : Voice → List String → Prop
  | .silent, parts => parts = []
  | .writing, parts => ∃ text, parts = [text]
  | .responding, parts => parts ≠ []

/-- What stands behind the text that is captured, where it is shown. -/
def ending : Voice → String
  | .responding => "\n"
  | _ => ""

/-- A request in the same voice, with what it shows. -/
theorem fits_answered {voice : Voice} {parts : List String} {r : Request}
    (permitted : voice.permits false r) (fits : voice.Fits parts) (ctx : Context) (ws : Workspace) :
    (voice.answered r).Fits (r.respondTo parts) ∧
      String.intercalate "\n" parts ++ voice.ending ++ Message.shown (ctx.utterance ws r) =
        String.intercalate "\n" (r.respondTo parts) ++ (voice.answered r).ending := by
  cases r with
  | write text style =>
    cases voice with
    | silent =>
      obtain rfl : parts = [] := fits
      exact ⟨⟨text, rfl⟩, by simp [Context.utterance, Message.shown, Request.respondTo,
        Context.extendLast, ending, answered]⟩
    | writing =>
      obtain ⟨before, rfl⟩ := fits
      exact ⟨⟨before ++ text, rfl⟩, by simp [Context.utterance, Message.shown, Request.respondTo,
        Context.extendLast, ending, answered]⟩
    | responding => exact absurd rfl permitted.2
  | respond text style =>
    cases voice with
    | silent =>
      obtain rfl : parts = [] := fits
      exact ⟨by simp [Fits, answered, Request.respondTo], by simp [Context.utterance, Message.shown,
        Request.respondTo, ending, answered]⟩
    | writing => exact absurd rfl permitted.2
    | responding =>
      have some : parts ≠ [] := fits
      refine ⟨by simp [Fits, answered, Request.respondTo], ?_⟩
      rw [Request.respondTo, String.intercalate_append_of_ne_nil some (by simp)]
      simp [Context.utterance, Message.shown, ending, answered, String.append_assoc]
  | _ => exact ⟨fits, by simp [Context.utterance, Message.shown, Request.respondTo, answered]⟩

end Voice

namespace Line

/-! ## A command on its way -/

/-- What a command that speaks for itself has shown so far, and what would be captured of it. -/
structure Sounds (call : Call) (voice : Voice) (ctx : Context) (log : List Entry) : Prop where
  fits : voice.Fits ctx.parts
  responds : log.any Entry.isResponse = true ↔ voice = .responding
  shows : call.mode.quiet = false → ∃ said, ctx.transcript = call.transcript ++ said ∧
    Message.shown said = String.intercalate "\n" ctx.parts ++ voice.ending

/-- What is known of a command on its way. One that is mute has responded nothing. -/
structure Heard (mute : Bool) (call : Call) (voice : Voice) (ctx : Context) (log : List Entry) :
    Prop where
  owner : ctx.owner.map Instance.fixed = call.owner.map Instance.fixed
  mode : ctx.mode = call.mode
  silent : mute = true → ctx.parts = []
  sounds : mute = false → Sounds call voice ctx log

section

variable {mute : Bool} {call : Call} {voice : Voice} {ctx : Context} {log : List Entry}

theorem heard_context (mute : Bool) (call : Call) : Heard mute call .silent call.context [] where
  owner := rfl
  mode := rfl
  silent _ := rfl
  sounds _ := ⟨rfl, by simp, fun _ => ⟨[], by simp [Call.context], rfl⟩⟩

theorem answered_eq_responding_iff {r : Request} (permitted : voice.permits false r) :
    voice.answered r = .responding ↔ voice = .responding ∨ r.isResponse = true := by
  cases r with
  | write text style => simpa [Request.isResponse, Voice.answered] using permitted.2
  | respond text style => simp [Request.isResponse, Voice.answered]
  | _ => simp [Request.isResponse, Voice.answered]

/-- A request in the voice of the command. -/
theorem Heard.answer {r : Request} (h : Heard mute call voice ctx log)
    (permitted : voice.permits mute r) (ws : Workspace) (line : String) :
    Heard mute call (voice.answered r) (ctx.answer ws r).2.1
      (log ++ [⟨line, .asked r (ctx.answer ws r).1⟩]) where
  owner := by rw [Context.answer_owner, h.owner]
  mode := by rw [Context.answer_mode, h.mode]
  silent := by
    rintro rfl
    rw [Context.answer_parts, h.silent rfl]
    cases r with
    | write text style => cases permitted.1
    | respond text style => cases permitted.1
    | _ => rfl
  sounds := by
    rintro rfl
    obtain ⟨fits, responds, shows⟩ := h.sounds rfl
    obtain ⟨fits', goesOn⟩ := Voice.fits_answered permitted fits ctx ws
    refine ⟨by rwa [Context.answer_parts], ?_, fun visible => ?_⟩
    · rw [List.any_append, Bool.or_eq_true, responds, answered_eq_responding_iff permitted]
      simp [Entry.isResponse]
    · obtain ⟨said, transcript, shown⟩ := shows visible
      have all : ctx.mode.shown (ctx.utterance ws r) = ctx.utterance ws r := by
        simp [Mode.shown, h.mode, visible]
      refine ⟨said ++ ctx.utterance ws r, ?_, ?_⟩
      · rw [Context.answer_transcript, all, transcript, List.append_assoc]
      · rw [Message.shown_append, shown, Context.answer_parts, goesOn]

/-- A command that keeps to its voice is heard as its voice has it. -/
theorem record_heard {α : Type} {inner : Outcomes} {nested : Recorder} (keeps : KeepsOwner inner)
    (follows : Follows inner nested) (action : Action α) {post : Voice → α → Prop} {ws : Workspace}
    {found : List Workspace} (heard : Heard mute call voice ctx log)
    (ensures : action.Ensures (voicing mute) call.owner voice post) (standard : ws.Standard)
    (all : AllStandard found) :
    (record nested action ctx ws found).Leads log
      (fun result log => ∃ voice, Heard mute call voice result.2 log) (fun _ => True) := by
  induction action generalizing voice ctx log ws found with
  | done value => exact Journal.leads_done ⟨voice, heard⟩ standard all
  | ask r next ih =>
    obtain ⟨permitted, rest⟩ := ensures
    have truthful := truthful_answer heard.owner ws r
    refine Journal.Leads.note ?_
    exact ih _ (heard.answer permitted ws ctx.line) (rest _ truthful) (standard.answer ctx r) all
  | evaluate code quiet next ih =>
    obtain ⟨rfl, rest⟩ := ensures
    refine Journal.Leads.note ?_
    have inside := (follows (nestedCall ctx code quiet) ws found standard all).after
      (log ++ [⟨ctx.line, .evaluated code⟩])
    refine inside.bind ?_ fun _ _ => trivial
    rintro e ws found _ ⟨own, rfl, evaluated⟩ standard all
    refine ih _ ?_ (rest _) standard all
    exact ⟨(keeps _ _ _ evaluated).trans heard.owner, heard.mode, heard.silent, nofun⟩
  | sleep duration next ih =>
    exact Journal.Leads.waitFor standard all trivial fun ws found => ih heard ensures
  | runScripts names next ih =>
    simp only [record]
    split
    · exact ih _ heard (ensures _) standard all
    · rename_i started ws' ok
      exact Journal.Leads.waitFor (standard.startBatch ok) all trivial
        fun ws found => ih _ heard (ensures _)
  | readInput next ih =>
    refine Journal.Leads.waitFor ?_ all trivial fun ws found standard => ?_
    · exact ⟨standard.registry_eq⟩
    · exact ih _ heard (ensures _) ⟨standard.registry_eq⟩

theorem shown_leave (schema : Schema) (color : String) (result : Except Fault Unit × Context) :
    ∃ last, (leave schema color result).transcript = result.2.transcript ++ last ∧
      Message.shown last = "" := by
  obtain ⟨outcome, ctx⟩ := result
  cases outcome with
  | ok _ => exact ⟨[], by simp [leave, ended], rfl⟩
  | error fault => exact ⟨[_], rfl, rfl⟩

theorem captured_leave (schema : Schema) (color : String) (result : Except Fault Unit × Context) :
    (leave schema color result).evaluation.captured = String.intercalate "\n" result.2.parts := by
  obtain ⟨outcome, ctx⟩ := result
  cases outcome <;> rfl

/-- What a line shows of a command that is neither mute nor quiet. -/
theorem Heard.shown_of_leave {schema : Schema} {color : String} {said : List Message}
    {result : Except Fault Unit × Context} (h : Heard mute call voice result.2 log)
    (speaks : mute = false) (visible : call.mode.quiet = false)
    (extended : (leave schema color result).transcript = call.transcript ++ said) :
    Message.shown said = String.intercalate "\n" result.2.parts ++
      if log.any Entry.isResponse then "\n" else "" := by
  obtain ⟨fits, responds, shows⟩ := h.sounds speaks
  obtain ⟨own, transcript_eq, shown⟩ := shows visible
  obtain ⟨after, left_eq, nothing⟩ := shown_leave schema color result
  obtain rfl : said = own ++ after := by
    rw [left_eq, transcript_eq, List.append_assoc] at extended
    exact (List.append_cancel_left extended).symm
  have ending : voice.ending = if log.any Entry.isResponse then "\n" else "" := by
    simp only [responds]
    cases voice <;> rfl
  rw [Message.shown_append, nothing, String.append_empty, shown, ending]

/-- What is heard of a command at the end of its line. -/
theorem heard_of_finish {depth : Nat} {ws : Workspace} {found : List Workspace}
    {r : Finished Ended} {c : Command} {args : List String} (standard : ws.Standard)
    (all : AllStandard found) (reading : read Registry.standard call.line = .runs c args)
    (ends : (call.evaluate (evaluate depth) ws).finish found = some r) :
    ∃ voice result color,
      Heard (c.isMute args) call voice result.2 (journal depth call ws found).entries ∧
        r.value = leave c.schema color result := by
  cases depth with
  | zero => cases ends
  | succ depth =>
    obtain ⟨name, -, known⟩ := find?_of_read_runs reading
    have voiced := builtins_voiced c (Registry.mem_builtins_of_find? known) call.owner args
    have leads : (journal (depth + 1) call ws found).Leads []
        (fun e log => ∃ voice result color, Heard (c.isMute args) call voice result.2 log ∧
          e = leave c.schema color result) (fun _ => True) := by
      unfold journal recordLine
      simp only [standard.registry_eq, reading]
      refine (record_heard (evaluates_keepsOwner depth) (journal_follows depth) (c.run args).run
        (heard_context _ call) voiced standard all).bind ?_ fun _ _ => trivial
      rintro result ws found log ⟨voice, heard⟩ standard all
      exact Journal.leads_done ⟨voice, result, _, heard, rfl⟩ standard all
    have result := journal_result (depth + 1) call ws found
    rw [ends] at result
    have heard := (leads.ended r result).1
    rw [List.nil_append] at heard
    exact heard

end

/-! ## Assigning what is captured -/

/-- What `assign` leaves behind after the line that it has evaluated, where `inner` is what that
line has left behind: the text that was captured of it in a variable, or why the variable cannot
have it. If the line has failed, or nothing was captured, no variable is set. -/
def Assigned (name : String) (inner : Ended) (mid : Workspace) (e : Ended) (last : Workspace) :
    Prop :=
  if inner.evaluation.failed = false ∧ inner.evaluation.captured ≠ "" then
    match (activeScope inner.owner mid).assign name (.text inner.evaluation.captured) with
    | .ok _ =>
      (e.owner, last) = stored name inner.evaluation.captured inner.owner mid ∧
        e.evaluation.failed = false ∧ e.transcript = inner.transcript
    | .error problem =>
      (e.owner, last) = (inner.owner, mid) ∧ e.evaluation.failed = true ∧
        e.transcript = inner.transcript ++
          [.error (errorText inner.owner problem.message) (Style.colored mid.config.errorColor)]
  else
    (e.owner, last) = (inner.owner, mid) ∧ e.evaluation.failed = inner.evaluation.failed ∧
      e.transcript = inner.transcript

theorem Assigned.told {name : String} {inner e : Ended} {mid last : Workspace}
    (h : Assigned name inner mid e last) :
    ∃ after, e.transcript = inner.transcript ++ after ∧ ∀ m ∈ after, m.isOutput = false := by
  unfold Assigned at h
  split at h
  · split at h
    · exact ⟨[], by simpa using h.2.2, by simp⟩
    · exact ⟨_, h.2.2, by simp [Message.isOutput]⟩
  · exact ⟨[], by simpa using h.2.2, by simp⟩

/-- What `assign` leaves behind if it lacks a name or code: an error. -/
def Misused (call : Call) (ws : Workspace) (e : Ended) (last : Workspace) : Prop :=
  (e.owner, last) = (call.owner, ws) ∧ e.evaluation.failed = true ∧
    e.transcript = call.transcript ++
      [.error (errorText call.owner (faultText Builtin.assign.schema .usage))
        (Style.colored ws.config.errorColor)]

theorem eq_assign {c : Command} (builtin : c ∈ builtins) (named : c.schema.name = "assign") :
    c = Builtin.assign := by
  have nests : c.schema.name ∈ nesting := by simp [named, nesting]
  rcases nesting_cases c builtin nests with rfl | rfl | rfl
  · exact absurd named (by decide)
  · exact absurd named (by decide)
  · rfl

/-- `assign` evaluates its code quietly, and has one request left after it. -/
theorem perform_assign_run (nested : Evaluator) (args : List String) (ctx : Context)
    (ws : Workspace) :
    perform nested (Builtin.assign.run args).run ctx ws =
      let name := Template.expand (ctx.lookup ws) (Builtin.arg args 0)
      let code := Builtin.rest args 1
      if name = "" ∨ Text.trim code = "" then .done (.error .usage, ctx) ws
      else
        (nested { pseudo := true, quiet := true } code ctx.owner ctx.transcript ws).bind
          fun inner mid =>
            let after := ctx.afterNested inner.evaluation inner.owner inner.transcript
            if inner.evaluation.failed = false ∧ inner.evaluation.captured ≠ "" then
              let answer := after.assign mid name (.text inner.evaluation.captured)
              .done (answer.1.mapError .assign, answer.2.1) answer.2.2
            else .done (.ok (), after) mid := by
  simp only [Builtin.assign, Builtin.expanded, perform_expand_bind]
  split
  · rfl
  · rw [perform_evaluate_bind]
    congr 1
    funext inner mid
    simp only [Bool.not_eq_true']
    split
    · exact perform_assign _ _ _ _ _
    · rfl

/-- A text is set in the active scope, or nothing is set. -/
theorem assign_text_eq (ctx : Context) (ws : Workspace) (name text : String) :
    ctx.assign ws name (.text text) =
      match (activeScope ctx.owner ws).assign name (.text text) with
      | .ok _ =>
        (.ok (), { ctx with owner := (stored name text ctx.owner ws).1 },
          (stored name text ctx.owner ws).2)
      | .error problem => (.error problem, ctx, ws) := by
  obtain ⟨line, mode, owner⟩ := ctx
  unfold Context.assign
  cases owner with
  | none =>
    show (match ws.globals.assign name (.text text) with | .ok globals => _ | .error e => _) =
      match ws.globals.assign name (.text text) with | .ok _ => _ | .error problem => _
    cases assigned : ws.globals.assign name (.text text) with
    | error problem => rfl
    | ok globals =>
      obtain ⟨-, rfl, -⟩ := Scope.assign_ok assigned
      rfl
  | some i =>
    show (match i.locals.assign name (.text text) with | .ok locals => _ | .error e => _) =
      match i.locals.assign name (.text text) with | .ok _ => _ | .error problem => _
    cases assigned : i.locals.assign name (.text text) with
    | error problem => rfl
    | ok locals =>
      obtain ⟨-, rfl, -⟩ := Scope.assign_ok assigned
      rfl

/-- After a line of which something was captured. -/
theorem assigned_text {ctx : Context} {inner : Ended} {mid : Workspace} (name : String)
    (good : ctx.failed = false)
    (keeps : inner.evaluation.failed = false ∧ inner.evaluation.captured ≠ "") :
    let after := ctx.afterNested inner.evaluation inner.owner inner.transcript
    let answer := after.assign mid name (.text inner.evaluation.captured)
    Assigned name inner mid (leave Builtin.assign.schema answer.2.2.config.errorColor
      (answer.1.mapError .assign, answer.2.1)) answer.2.2 := by
  intro after answer
  have failed : after.failed = false := by
    simp [after, Context.afterNested, good, keeps.1]
  have answered : answer = _ := assign_text_eq after mid name inner.evaluation.captured
  rw [Assigned, if_pos keeps]
  show match (activeScope after.owner mid).assign name _ with | .ok _ => _ | .error problem => _
  cases assigned : (activeScope after.owner mid).assign name (.text inner.evaluation.captured) with
  | ok scope =>
    rw [assigned] at answered
    rw [answered]
    exact ⟨rfl, failed, rfl⟩
  | error problem =>
    rw [assigned] at answered
    rw [answered]
    refine ⟨rfl, rfl, ?_⟩
    show after.transcript ++ [.error (after.origin ++ problem.message ++ "\n") _] = _
    rw [origin_append]
    rfl

/-- The end of a line of `assign`, by the end of the line that it has evaluated. -/
theorem assigned_of_finish {call : Call} {depth : Nat} {ws : Workspace} {found : List Workspace}
    {args : List String} {r : Finished Ended} (standard : ws.Standard)
    (reading : read Registry.standard call.line = .runs Builtin.assign args)
    (ends : (call.evaluate (evaluate (depth + 1)) ws).finish found = some r) :
    let name := Template.expand (call.context.lookup ws) (Builtin.arg args 0)
    let code := Builtin.rest args 1
    (name = "" ∨ Text.trim code = "") ∧ Misused call ws r.value r.last ∨
      ∃ inner mid,
        (evaluate depth { pseudo := true, quiet := true } code call.owner call.transcript ws).finish
          found = some ⟨inner, mid, r.left⟩ ∧
        Assigned name inner mid r.value r.last := by
  intro name code
  have line : call.evaluate (evaluate (depth + 1)) ws =
      (perform (evaluate depth) (Builtin.assign.run args).run call.context ws).bind
        fun result ws => .done (leave Builtin.assign.schema ws.config.errorColor result) ws := by
    rw [Call.evaluate, evaluate_succ, standard.registry_eq, reading]
    rfl
  rw [line, perform_assign_run] at ends
  by_cases bad : name = "" ∨ Text.trim code = ""
  · rw [if_pos bad] at ends
    cases ends
    refine .inl ⟨bad, rfl, rfl, ?_⟩
    show call.transcript ++ [.error (call.context.origin ++ _ ++ "\n") _] = _
    rw [origin_append]
    rfl
  · rw [if_neg bad, Run.bind_bind, Run.finish_bind] at ends
    obtain ⟨⟨inner, mid, left⟩, evaluated, rest⟩ := Option.bind_eq_some_iff.mp ends
    dsimp only at rest
    by_cases keeps : inner.evaluation.failed = false ∧ inner.evaluation.captured ≠ ""
    · rw [if_pos keeps] at rest
      cases rest
      exact .inr ⟨inner, mid, evaluated, assigned_text name rfl keeps⟩
    · rw [if_neg keeps] at rest
      cases rest
      refine .inr ⟨inner, mid, evaluated, ?_⟩
      rw [Assigned, if_neg keeps]
      exact ⟨rfl, Bool.false_or _, rfl⟩

/-! ## Any line -/

/-- A line adds to what was said before, and a quiet one adds no output. -/
theorem said_of_finish {depth : Nat} {mode : Mode} {line : String} {owner : Option Instance}
    {transcript : List Message} {ws : Workspace} {found : List Workspace} {r : Finished Ended}
    (ends : (evaluate depth mode line owner transcript ws).finish found = some r) :
    ∃ said, r.value.transcript = transcript ++ said ∧
      (mode.quiet = true → ∀ m ∈ said, m.isOutput = false) := by
  have agrees := evaluate_discreet depth mode mode line owner transcript transcript ws rfl
  obtain ⟨e, ends', same⟩ := agrees.of_finish ends
  obtain ⟨said, extended, -⟩ := same.said
  refine ⟨mode.shown said, extended, fun quiet m mem => ?_⟩
  rw [Mode.shown, if_pos quiet] at mem
  simpa using (List.mem_filter.mp mem).2

/-- A line of `assign` shows no output: its code is quiet, and nothing is said after it but an
error. -/
theorem calm_of_assigned {call : Call} {depth : Nat} {ws last : Workspace}
    {found left : List Workspace} {e : Ended} {said : List Message} {name code : String}
    (extended : e.transcript = call.transcript ++ said)
    (assigned : (name = "" ∨ Text.trim code = "") ∧ Misused call ws e last ∨
      ∃ inner mid,
        (evaluate depth { pseudo := true, quiet := true } code call.owner call.transcript ws).finish
          found = some ⟨inner, mid, left⟩ ∧
        Assigned name inner mid e last) :
    ∀ m ∈ said, m.isOutput = false := by
  rcases assigned with ⟨-, misused⟩ | ⟨inner, mid, evaluated, assigned⟩
  · obtain ⟨-, -, told⟩ := misused
    obtain rfl := List.append_cancel_left (extended.symm.trans told)
    simp [Message.isOutput]
  · obtain ⟨own, inside, calm⟩ := said_of_finish evaluated
    obtain ⟨after, told, quiet⟩ := assigned.told
    obtain rfl := List.append_cancel_left
      (extended.symm.trans (told.trans (by rw [inside, List.append_assoc])))
    intro m mem
    rcases List.mem_append.mp mem with here | there
    · exact calm rfl m here
    · exact quiet m there

/-- What is captured of a line is what it shows. Nothing is captured of `visit`, of `assign`, and
of `if` with code, whatever the lines that they evaluate say. Any other builtin command, if it is
not quiet, shows the text that is captured, with a line feed behind it if it has responded.
`assign` shows no output. It fails for want of a name or of code; otherwise it evaluates its code
quietly and, unless the code fails or nothing is captured of it, sets the variable of its owner, or
the global one, to the text that was captured, or reports why it cannot. -/
theorem captured_is_shown (depth : Nat) (mode : Mode) (line : String) (owner : Option Instance)
    (transcript : List Message) {ws last : Workspace} {found left : List Workspace} {e : Ended}
    {c : Command} {args : List String} (standard : ws.Standard) (all : AllStandard found)
    (reading : read Registry.standard line = .runs c args)
    (ends : (evaluate depth mode line owner transcript ws).finish found = some ⟨e, last, left⟩) :
    let call : Call := ⟨mode, line, owner, transcript⟩
    ∃ said, e.transcript = transcript ++ said ∧
      (c.isMute args = true → e.evaluation.captured = "") ∧
      (c.isMute args = false → mode.quiet = false →
        Message.shown said = e.evaluation.captured ++
          if (journal depth call ws found).entries.any Entry.isResponse then "\n" else "") ∧
      (c.schema.name = "assign" →
        let name := Template.expand (call.context.lookup ws) (Builtin.arg args 0)
        let code := Builtin.rest args 1
        (∀ m ∈ said, m.isOutput = false) ∧
          ((name = "" ∨ Text.trim code = "") ∧ Misused call ws e last ∨
            ∃ inner mid,
              (evaluate (depth - 1) { pseudo := true, quiet := true } code owner transcript
                ws).finish found = some ⟨inner, mid, left⟩ ∧
              Assigned name inner mid e last)) := by
  intro call
  obtain ⟨said, extended, -⟩ := said_of_finish ends
  have ends : (call.evaluate (evaluate depth) ws).finish found = some ⟨e, last, left⟩ := ends
  have reading : read Registry.standard call.line = .runs c args := reading
  obtain ⟨voice, result, color, heard, leaves⟩ := heard_of_finish standard all reading ends
  have leaves : e = leave c.schema color result := leaves
  refine ⟨said, extended, ?_, ?_, ?_⟩
  · intro mute
    rw [leaves, captured_leave, heard.silent mute]
    rfl
  · intro speaks visible
    rw [heard.shown_of_leave speaks visible (leaves ▸ extended), leaves, captured_leave]
  · intro assigns name code
    obtain ⟨_, -, known⟩ := find?_of_read_runs reading
    obtain rfl := eq_assign (Registry.mem_builtins_of_find? known) assigns
    obtain ⟨depth, rfl⟩ : ∃ n, depth = n + 1 := by
      cases depth with
      | zero => cases ends
      | succ n => exact ⟨n, rfl⟩
    have assigned := assigned_of_finish standard reading ends
    rw [Nat.add_sub_cancel]
    exact ⟨calm_of_assigned extended assigned, assigned⟩

/-- A bare line prints a text, and another one keeps what it would have printed. -/
theorem print_is_captured :
    (∃ e last left, (evaluate 3 {} "print a b" none [] .isolated).finish [] = some ⟨e, last, left⟩ ∧
      ∃ said, e.transcript = [] ++ said ∧ Message.shown said = e.evaluation.captured ++ "\n" ∧
        e.evaluation.captured = "a b") ∧
    ∃ e last left,
      (evaluate 3 {} "assign v print a b" none [] .isolated).finish [] = some ⟨e, last, left⟩ ∧
      (last.globals.get? "v").bind Value.text? = some "a b" ∧ e.evaluation.captured = "" ∧
      ∃ said, e.transcript = [] ++ said ∧ (∀ m ∈ said, m.isOutput = false) ∧
        ∃ inner mid, (evaluate 2 { pseudo := true, quiet := true } "print a b" none []
          .isolated).finish [] = some ⟨inner, mid, left⟩ ∧ Assigned "v" inner mid e last := by
  obtain ⟨prints, responds, assigns⟩ :
      ((evaluate 3 {} "print a b" none [] .isolated).finish []).any
        (·.value.evaluation.captured == "a b") = true ∧
      (journal 3 ⟨{}, "print a b", none, []⟩ .isolated []).entries.any Entry.isResponse = true ∧
      ((evaluate 3 {} "assign v print a b" none [] .isolated).finish []).any
        (fun r => (r.last.globals.get? "v").bind Value.text? == some "a b") = true := by
    rw [Workspace.isolated_eq]
    decide +kernel
  constructor
  · have reading : read Registry.standard "print a b" = .runs Builtin.print ["a", "b"] :=
      read_runs_of_builtin Registry.standard_holdsBuiltins "print" (by simp [builtins])
        (by decide +kernel) (by decide +kernel) (by decide +kernel)
    obtain ⟨⟨e, last, left⟩, ends, captured⟩ := (Option.any_eq_true _ _).mp prints
    obtain ⟨said, extended, -, shown, -⟩ := captured_is_shown 3 {} "print a b" none []
      Workspace.isolated_standard allStandard_nil reading ends
    refine ⟨e, last, left, ends, said, extended, ?_, eq_of_beq captured⟩
    rw [shown (by decide +kernel) rfl, if_pos responds]
  · have reading : read Registry.standard "assign v print a b" =
        .runs Builtin.assign ["v", "print", "a", "b"] :=
      read_runs_of_builtin Registry.standard_holdsBuiltins "assign" (by simp [builtins])
        (by decide +kernel) (by decide +kernel) (by decide +kernel)
    obtain ⟨⟨e, last, left⟩, ends, kept⟩ := (Option.any_eq_true _ _).mp assigns
    obtain ⟨said, extended, mute, -, assigned⟩ := captured_is_shown 3 {} "assign v print a b" none
      [] Workspace.isolated_standard allStandard_nil reading ends
    have name : Template.expand (Context.lookup (Call.context ⟨{}, "assign v print a b", none, []⟩)
        .isolated) (Builtin.arg ["v", "print", "a", "b"] 0) = "v" := by decide +kernel
    have code : Builtin.rest ["v", "print", "a", "b"] 1 = "print a b" := by decide +kernel
    have assigned := assigned rfl
    simp only [name, code] at assigned
    obtain ⟨calm, ⟨bad, -⟩ | evaluated⟩ := assigned
    · exact absurd bad (by decide +kernel)
    · exact ⟨e, last, left, ends, eq_of_beq kept, mute (by decide +kernel), said, extended, calm,
        evaluated⟩

end Line

end LineScript
