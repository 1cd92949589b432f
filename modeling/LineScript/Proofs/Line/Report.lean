import LineScript.Proofs.Line.Course

/-!
# Errors are reported once

A builtin command never reports an error itself: it ends in a fault, and the line that runs it
reports that. If a line that it evaluated has failed, the report is there already, and the command
ends well without another word. So at every depth a line that fails has reported one error, with
its last message, and a line that does not fail has reported none.

The error names the owner and the line that the owner is on, also if it comes from a line that was
visited or stands behind a condition.
-/

namespace LineScript.Line

/-- The text of an error: where it comes from, if a script owns the line, and what is wrong. -/
def errorText : Option Instance → String → String
  | some i, body => i.name ++ "#" ++ toString (i.counter + 1) ++ " > " ++ body ++ "\n"
  | none, body => body ++ "\n"

theorem origin_append (ctx : Context) (body : String) :
    ctx.origin ++ body ++ "\n" = errorText ctx.owner body := by
  unfold Context.origin
  split
  · rename_i i owner
    rw [owner, errorText]
  · rename_i owner
    rw [owner, errorText, String.empty_append]

theorem errorText_fixed (owner : Option Instance) :
    errorText (owner.map Instance.fixed) = errorText owner := by
  cases owner <;> rfl

theorem errorText_eq_of_fixed_eq {a b : Option Instance}
    (h : a.map Instance.fixed = b.map Instance.fixed) : errorText a = errorText b := by
  rw [← errorText_fixed a, h, errorText_fixed b]

/-- What a line may say: no error, or one at the end if the line has failed. -/
inductive Tells (owner : Option Instance) : Bool → List Message → Prop where
  | calm {said : List Message} (calm : ∀ m ∈ said, m.isError = false) : Tells owner false said
  | failed {before : List Message} {body : String} {style : Style}
      (calm : ∀ m ∈ before, m.isError = false) (complaint : Complaint body) :
      Tells owner true (before ++ [.error (errorText owner body) style])

section

variable {owner : Option Instance} {failed : Bool} {before said : List Message}

theorem Tells.calm_of_not_failed (h : Tells owner false said) : ∀ m ∈ said, m.isError = false := by
  cases h with
  | calm calm => exact calm

/-- Messages without an error may come first. -/
theorem Tells.after (first : Tells owner false before) (h : Tells owner failed said) :
    Tells owner failed (before ++ said) := by
  have calm := first.calm_of_not_failed
  cases h with
  | calm later => exact .calm (List.forall_mem_append.mpr ⟨calm, later⟩)
  | failed later complaint =>
    rw [← List.append_assoc]
    exact .failed (List.forall_mem_append.mpr ⟨calm, later⟩) complaint

/-- Nothing but the name and the counter of the owner goes into an error. -/
theorem Tells.of_fixed_eq {other : Option Instance} (h : Tells other failed said)
    (same : other.map Instance.fixed = owner.map Instance.fixed) : Tells owner failed said := by
  cases h with
  | calm calm => exact .calm calm
  | failed calm complaint =>
    rw [errorText_eq_of_fixed_eq same]
    exact .failed calm complaint

/-- An error is reported where none was reported before. -/
theorem Tells.report {ctx : Context} {base : List Message} {text : String} (color : String)
    (transcript : ctx.transcript = base ++ said) (h : Tells owner false said)
    (same : ctx.owner.map Instance.fixed = owner.map Instance.fixed)
    (complaint : Complaint text) :
    ∃ said, (ctx.report color text).transcript = base ++ said ∧ Tells owner true said := by
  refine ⟨said ++ [.error (errorText ctx.owner text) (Style.colored color)], ?_, ?_⟩
  · rw [← List.append_assoc, ← transcript, ← origin_append]
    rfl
  · rw [errorText_eq_of_fixed_eq same]
    exact .failed h.calm_of_not_failed complaint

theorem Tells.failed_iff (h : Tells owner failed said) :
    failed = true ↔ ∃ m ∈ said, m.isError = true := by
  cases h with
  | calm calm => simpa using calm
  | failed calm complaint => simp [Message.isError]

end

/-! ## A command on its way -/

/-- What a permitted request says is no error, and it says nothing after a failure. -/
theorem utterance_of_permits {name raw : String} {owner : Option Instance} {s : Stage}
    {r : Request} (permitted : Conduct.permits name raw owner s r) (ctx : Context)
    (ws : Workspace) :
    (∀ m ∈ ctx.utterance ws r, m.isError = false) ∧ (¬s.Open → ctx.utterance ws r = []) := by
  cases r with
  | report text => exact permitted.elim
  | write text style =>
    refine ⟨?_, fun closed => absurd permitted closed⟩
    simp [Context.utterance, Message.isError]
  | respond text style =>
    refine ⟨?_, fun closed => absurd permitted closed⟩
    simp [Context.utterance, Message.isError]
  | clearScreen =>
    refine ⟨?_, fun closed => absurd permitted closed⟩
    simp [Context.utterance, Message.isError]
  | _ => simp [Context.utterance]

theorem isReport_of_permits {name raw : String} {owner : Option Instance} {s : Stage} {r : Request}
    (permitted : Conduct.permits name raw owner s r) : r.isReport = false := by
  cases r with
  | report text => exact permitted.elim
  | _ => rfl

theorem open_answered_iff {name raw : String} {owner : Option Instance} {s : Stage} {r : Request}
    (permitted : Conduct.permits name raw owner s r) :
    (Conduct.answered s r).Open ↔ s.Open := by
  cases r with
  | jump target =>
    obtain ⟨rfl, -⟩ := permitted
    simp [Conduct.answered]
  | _ => rfl

/-- The lines tell what they may tell, and those that fail go nowhere. -/
def AllTell (inner : Outcomes) : Prop :=
  ∀ call e log, inner call (some e) log →
    (∃ said, e.transcript = call.transcript ++ said ∧ Tells call.owner e.evaluation.failed said) ∧
      (e.evaluation.failed = true → e.evaluation.jump = none)

theorem shown_calm {said : List Message} (mode : Mode) (calm : ∀ m ∈ said, m.isError = false) :
    ∀ m ∈ mode.shown said, m.isError = false := by
  unfold Mode.shown
  split
  · exact fun m mem => calm m (List.mem_of_mem_filter mem)
  · exact calm

/-- At every moment of its line a command has told what it may tell, and it may fail unless it has
failed. -/
theorem Reached.tells {inner : Outcomes} {call : Call} {name raw : String} {s : Stage}
    {ctx : Context} {log : List Entry} (keeps : KeepsOwner inner) (tell : AllTell inner)
    (h : Reached inner call name raw s ctx log) :
    (∃ said, ctx.transcript = call.transcript ++ said ∧ Tells call.owner ctx.failed said) ∧
      (s.Open ↔ ctx.failed = false) := by
  induction h with
  | start => exact ⟨⟨[], by simp [Call.context], .calm (by simp)⟩, by simp [Call.context]⟩
  | @asked s ctx log ws r before permitted ih =>
    obtain ⟨⟨said, transcript, tells⟩, mayFail⟩ := ih
    obtain ⟨calm, mute⟩ := utterance_of_permits permitted ctx ws
    rw [open_answered_iff permitted, Context.answer_failed, isReport_of_permits permitted,
      Bool.or_false, Context.answer_transcript]
    refine ⟨⟨said ++ ctx.mode.shown (ctx.utterance ws r), by simp [transcript], ?_⟩, mayFail⟩
    cases failed : ctx.failed with
    | false =>
      rw [failed] at tells
      exact tells.after (.calm (shown_calm ctx.mode calm))
    | true =>
      -- The error is the last message so far, and it stays so: the command has to be silent.
      have closed : ¬s.Open := by simp [mayFail, failed]
      rw [mute closed, Mode.shown_nil, List.append_nil, ← failed]
      exact tells
  | @nested ctx log own code quiet e before wrote evaluated ih =>
    obtain ⟨⟨said, transcript, tells⟩, mayFail⟩ := ih
    obtain ⟨⟨more, later, nestedTells⟩, -⟩ := tell _ _ _ evaluated
    have failed : ctx.failed = false := mayFail.mp trivial
    have mine := nestedTells.of_fixed_eq (before.owner_eq keeps)
    rw [failed] at tells
    simp only [Context.afterNested, failed, Bool.false_or, Stage.open_spent, and_true]
    refine ⟨said ++ more, ?_, tells.after mine⟩
    rw [later]
    simp [nestedCall, transcript]

/-- By induction on the depth: what nested lines tell is known when their line is looked at. -/
theorem evaluates_tells (depth : Nat) : AllTell (Evaluates depth) := by
  induction depth with
  | zero =>
    rintro call e log ⟨ended, -⟩
    cases ended
  | succ depth ih =>
    intro call e log course
    have keeps := evaluates_keepsOwner depth
    cases course with
    | idle => exact ⟨⟨[], by simp, .calm (by simp)⟩, by simp⟩
    | unknown complaint =>
      have silent : call.context.transcript = call.transcript ++ [] := by simp [Call.context]
      exact ⟨Tells.report _ silent (.calm (by simp)) rfl complaint, fun _ => rfl⟩
    | good runs reached =>
      exact ⟨(reached.tells keeps ih).1, fun failed => if_pos failed⟩
    | fault runs reached mayFail complaint =>
      obtain ⟨⟨said, transcript, tells⟩, opened⟩ := reached.tells keeps ih
      rw [opened.mp mayFail] at tells
      exact ⟨Tells.report _ transcript tells (reached.owner_eq keeps) complaint, fun _ => rfl⟩

/-! ## Any line -/

/-- A line fails if and only if it reports an error. It reports one, with its last message, which
says where the owner is, and then it goes nowhere. -/
theorem failure_is_reported_once (depth : Nat) (mode : Mode) (line : String)
    (owner : Option Instance) (transcript : List Message) {ws last : Workspace}
    {found left : List Workspace} {e : Ended} (standard : ws.Standard) (all : AllStandard found)
    (ends : (evaluate depth mode line owner transcript ws).finish found = some ⟨e, last, left⟩) :
    ∃ said, e.transcript = transcript ++ said ∧
      (e.evaluation.failed = true ↔ ∃ m ∈ said, m.isError = true) ∧
      (e.evaluation.failed = true →
        e.evaluation.jump = none ∧
        ∃ before body style, said = before ++ [.error (errorText owner body) style] ∧
          (∀ m ∈ before, m.isError = false) ∧ Complaint body) := by
  let call : Call := ⟨mode, line, owner, transcript⟩
  have ends : (call.evaluate (evaluate depth) ws).finish found = some ⟨e, last, left⟩ := ends
  have course := evaluates_of_finish standard all ends
  obtain ⟨⟨said, extended, tells⟩, stays⟩ := evaluates_tells depth call e _ course
  refine ⟨said, extended, tells.failed_iff, fun failed => ⟨stays failed, ?_⟩⟩
  rw [failed] at tells
  cases tells with
  | failed calm complaint => exact ⟨_, _, _, rfl, calm, complaint⟩

/-- A script that visits a line whose command does not know its argument. -/
def astray : Instance :=
  .ofText "tour" "visit 3\nprint never\ngoto nowhere" 0 0

theorem astray_fails_once :
    ∃ e last left,
      (evaluate 3 {} "visit 3" (some astray) [] .isolated).finish [] = some ⟨e, last, left⟩ ∧
      e.evaluation.failed = true ∧
      ∃ said, e.transcript = [] ++ said ∧
        (e.evaluation.failed = true ↔ ∃ m ∈ said, m.isError = true) ∧
        (e.evaluation.failed = true →
          e.evaluation.jump = none ∧
          ∃ before body style, said = before ++ [.error (errorText (some astray) body) style] ∧
            (∀ m ∈ before, m.isError = false) ∧ Complaint body) := by
  have fails : ((evaluate 3 {} "visit 3" (some astray) [] .isolated).finish []).any
      (·.value.evaluation.failed) = true := by
    rw [Workspace.isolated_eq]
    decide +kernel
  obtain ⟨⟨e, last, left⟩, ends, failed⟩ := (Option.any_eq_true _ _).mp fails
  exact ⟨e, last, left, ends, failed, failure_is_reported_once 3 {} "visit 3" (some astray) []
    Workspace.isolated_standard allStandard_nil ends⟩

end LineScript.Line
