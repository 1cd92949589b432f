import LineScript.Proofs.Command.Catalogue
import LineScript.Proofs.Line.Course
import LineScript.Proofs.Template.Joining

/-!
# Commands that take a text

Ten builtin commands take a text at the end of their line: all that stands there, spaces included.
They get it in fields, which they put together before references are replaced in the whole. What
comes of it is what comes of the line as it is written: `TextCommand.act` says what a command does
with a text and the words before it, and `Line.evaluate_text` that a line of the command does this
with what stands on it.
-/

namespace LineScript

/-- The text that a line finds under a name. -/
def Context.lookup (ctx : Context) (ws : Workspace) : String → Option String :=
  Scope.visibleText? ctx.locals ws.globals

/-- A command that takes a text at the end of its line. -/
structure TextCommand where
  command : Command
  /-- How many arguments stand before the text. -/
  before : Nat
  /-- What the command does with the arguments before the text, by their place, and with the text,
  if the line goes so far. References have been replaced in all of them. -/
  act : (Nat → String) → Option String → Step Unit

open Builtin in
/-- The builtin commands that take a text. A text that is missing counts as empty, but there has to
be one to add to a list. -/
def textCommands : List TextCommand :=
  [{ command := print, before := 0
     act := fun _ text => Step.respond (text.getD "") },
   { command := write, before := 0
     act := fun _ text => Step.write (text.getD "") },
   { command := var, before := 1
     act := fun word text =>
      if word 0 = "" ∨ text.getD "" = "" then throw .usage
      else Step.assign (word 0) (.text (text.getD "")) },
   { command := glob, before := 1
     act := fun word text =>
      if word 0 = "" ∨ text.getD "" = "" then throw .usage
      else Step.assignGlobal (word 0) (.text (text.getD "")) },
   { command := listAdd, before := 1
     act := fun word text =>
      if word 0 = "" ∨ text.isNone then throw .usage
      else do
        let items ← listItems (word 0)
        Step.update (word 0) (.list (items ++ [text.getD ""])) },
   { command := objSet, before := 2
     act := fun word text =>
      if word 0 = "" ∨ word 1 = "" then throw .usage
      else do
        let fields ← objectFields (word 0)
        Step.update (word 0) (.object (fields.insert (word 1) (text.getD ""))) },
   { command := typeText, before := 0
     act := fun _ text =>
      if text.getD "" = "" then throw .usage
      else do Step.act (.type (text.getD "") (← Step.typingSpeed)) },
   { command := substringCommand, before := 2
     act := fun word text =>
      match Number.ofText? (word 0), Number.ofText? (word 1) with
      | some start, some stop => Step.respond (substring (text.getD "") start stop)
      | _, _ => throw .usage },
   { command := replace, before := 2
     act := fun word text =>
      if word 0 = "" ∨ word 1 = "" then throw .usage
      else Step.respond (Text.replaceFirst (word 0) (word 1) (text.getD "")) },
   { command := Builtin.replaceAll, before := 2
     act := fun word text =>
      if word 0 = "" ∨ word 1 = "" then throw .usage
      else Step.respond (Text.replaceAll (word 0) (word 1) (text.getD "")) }]

namespace Line

section

variable {α : Type} (nested : Evaluator) (ctx : Context) (ws : Workspace)

/-- To have references replaced changes nothing, so a command goes on with the result. -/
theorem perform_expand_bind (template : String) (f : String → Step α) :
    perform nested (Step.expand template >>= f).run ctx ws =
      perform nested (f (Template.expand (ctx.lookup ws) template)).run ctx ws :=
  rfl

theorem perform_number_bind (args : List String) (i : Nat) (f : Option Binary64 → Step α) :
    perform nested (Builtin.number? args i >>= f).run ctx ws =
      perform nested
        (f (Number.ofText? (Template.expand (ctx.lookup ws) (Builtin.arg args i)))).run ctx ws :=
  rfl

/-- Of two texts that a command takes neither may be empty. -/
theorem perform_both_bind (first second : String) (f : String × String → Step α) :
    perform nested ((do
        let a ← Step.expand first
        let b ← Step.expand second
        if a = "" ∨ b = "" then throw .usage
        return (a, b)) >>= f).run ctx ws =
      perform nested
        (if Template.expand (ctx.lookup ws) first = "" ∨
            Template.expand (ctx.lookup ws) second = "" then throw .usage
          else f (Template.expand (ctx.lookup ws) first,
            Template.expand (ctx.lookup ws) second)).run ctx ws := by
  simp only [bind_assoc, perform_expand_bind]
  split <;> rfl

/-- What a command does after a line that it has evaluated. -/
theorem perform_evaluate_bind (code : String) (quiet : Bool) (f : Evaluation → Step α) :
    perform nested (Step.evaluate code quiet >>= f).run ctx ws =
      (nested { pseudo := true, quiet := quiet || ctx.mode.quiet } code ctx.owner ctx.transcript
        ws).bind fun e ws =>
          perform nested (f e.evaluation).run
            (ctx.afterNested e.evaluation e.owner e.transcript) ws :=
  rfl

/-- The last thing that a command does is to set a variable. -/
theorem perform_assign (name : String) (value : Value) :
    perform nested (Step.assign name value).run ctx ws =
      .done ((ctx.assign ws name value).1.mapError Fault.assign, (ctx.assign ws name value).2.1)
        (ctx.assign ws name value).2.2 := by
  show perform nested (Step.ofExcept Fault.assign (ctx.assign ws name value).1).run _ _ = _
  cases (ctx.assign ws name value).1 <;> rfl

variable (args : List String)

/-- The text as a command gets it: put together from its fields, if the line goes so far. -/
def textFrom (before : Nat) : Option String :=
  if before < args.length then
    some (Template.expand (ctx.lookup ws) (Builtin.rest args before))
  else none

theorem getD_textFrom (before : Nat) :
    (textFrom ctx ws args before).getD "" =
      Template.expand (ctx.lookup ws) (Builtin.rest args before) := by
  unfold textFrom
  split
  · rfl
  · rename_i missing
    have none : Builtin.rest args before = "" := by
      rw [Builtin.rest, List.drop_eq_nil_of_le (by omega)]
      rfl
    rw [none, Template.expand_of_free (by simp), Option.getD_none]

theorem isNone_textFrom (before : Nat) :
    (textFrom ctx ws args before).isNone = true ↔ args.length < before + 1 := by
  unfold textFrom
  split <;> simp <;> omega

end

end Line

namespace TextCommand

/-- On every line the command does with its text what `act` says, and no more. -/
def Takes (t : TextCommand) : Prop :=
  ∀ (nested : Line.Evaluator) (ctx : Context) (ws : Workspace) (args : List String),
    Line.perform nested (t.command.run args).run ctx ws =
      Line.perform nested (t.act
        (fun i => Template.expand (ctx.lookup ws) (Builtin.arg args i))
        (Line.textFrom ctx ws args t.before)).run ctx ws

end TextCommand

open Builtin Line in
theorem textCommands_take : ∀ t ∈ textCommands, t.Takes := by
  simp only [textCommands, List.forall_mem_cons, TextCommand.Takes, getD_textFrom, isNone_textFrom]
  refine ⟨?print, ?write, ?var, ?glob, ?listAdd, ?objSet, ?type, ?substring, ?replace, ?replaceAll,
    by simp⟩
  -- The words before the text are checked on both sides, and then the text is the same.
  all_goals intro nested ctx ws args
  case print => rfl
  case write => rfl
  case var => exact perform_both_bind nested ctx ws (arg args 0) (rest args 1) _
  case glob => exact perform_both_bind nested ctx ws (arg args 0) (rest args 1) _
  case listAdd =>
    simp only [listAdd, expanded, expandedRest, perform_expand_bind]
    split <;> rfl
  case objSet =>
    refine (perform_both_bind nested ctx ws (arg args 0) (arg args 1) _).trans ?_
    split <;> rfl
  case type =>
    simp only [typeText, expandedRest, perform_expand_bind]
    split <;> rfl
  case substring =>
    simp only [substringCommand, expandedRest, perform_number_bind]
    cases Number.ofText? (Template.expand (ctx.lookup ws) (arg args 0)) with
    | none => rfl
    | some start =>
      cases Number.ofText? (Template.expand (ctx.lookup ws) (arg args 1)) with
      | none => rfl
      | some stop => simp only [perform_expand_bind]
  case replace =>
    refine (perform_both_bind nested ctx ws (arg args 0) (arg args 1) _).trans ?_
    split <;> rfl
  case replaceAll =>
    refine (perform_both_bind nested ctx ws (arg args 0) (arg args 1) _).trans ?_
    split <;> rfl

/-! ## On a line -/

namespace Line

/-- A word of the line after the command, with its references replaced. -/
def word (ctx : Context) (ws : Workspace) (i : Nat) : String :=
  Template.expand (ctx.lookup ws) ((Text.fields (content ctx.line)).getD (i + 1) "")

/-- What stands on the line after the command and so many words, with its references replaced. -/
def tail (ctx : Context) (ws : Workspace) (before : Nat) : Option String :=
  ((Text.after? (before + 1) (content ctx.line).toList).map String.ofList).map
    (Template.expand (ctx.lookup ws))

section

variable (ctx : Context) {name : String} {args : List String}
  (split : Text.fields (content ctx.line) = name :: args) (ws : Workspace)
include split

theorem word_eq (i : Nat) :
    word ctx ws i = Template.expand (ctx.lookup ws) (Builtin.arg args i) := by
  rw [word, split, List.getD_cons_succ, Builtin.arg]

theorem tail_eq (before : Nat) : tail ctx ws before = textFrom ctx ws args before := by
  rw [tail, Text.map_after?_fields, split, List.length_cons, List.drop_succ_cons, textFrom]
  by_cases more : before < args.length
  · simp [more, Builtin.rest]
  · simp [more]

end

/-- A line of such a command comes to what its command does with the words before the text and with
the text as it stands on the line. -/
theorem evaluate_text {t : TextCommand} (text : t ∈ textCommands) {line : String}
    {args : List String} {ws : Workspace}
    (reading : read ws.registry line = .runs t.command args) (depth : Nat) (mode : Mode)
    (owner : Option Instance) (transcript : List Message) :
    let ctx : Context := { line, mode, owner, transcript }
    evaluate (depth + 1) mode line owner transcript ws =
      (perform (evaluate depth) (t.act (word ctx ws) (tail ctx ws t.before)).run ctx ws).bind
        fun result ws => .done (leave t.command.schema ws.config.errorColor result) ws := by
  intro ctx
  obtain ⟨name, split, -⟩ := find?_of_read_runs reading
  have words : word ctx ws = fun i => Template.expand (ctx.lookup ws) (Builtin.arg args i) :=
    funext (word_eq ctx split ws)
  rw [evaluate_succ, reading, words, tail_eq ctx split]
  show (perform (evaluate depth) (t.command.run args).run ctx ws).bind _ = _
  rw [textCommands_take t text]

/-- References are replaced before texts are joined as well as after it. So a command takes the end
of its line as it is written there, with every reference replaced in its place, although it gets the
line in fields and puts them together again. -/
theorem text_is_expanded_in_place :
    (∀ (lookup : String → Option String) (tokens : List String),
      Template.expand lookup (Text.unfields tokens) =
        Text.unfields (tokens.map (Template.expand lookup))) ∧
    (∀ line : String, Text.unfields (Text.fields line) = line) ∧
    (∀ tokens : List String, tokens ≠ [] → (∀ token ∈ tokens, ' ' ∉ token.toList) →
      Text.fields (Text.unfields tokens) = tokens) ∧
    ∀ t ∈ textCommands, ∀ (line : String) (args : List String) (ws : Workspace),
      read ws.registry line = .runs t.command args →
      ∀ (depth : Nat) (mode : Mode) (owner : Option Instance) (transcript : List Message),
        let ctx : Context := { line, mode, owner, transcript }
        evaluate (depth + 1) mode line owner transcript ws =
          (perform (evaluate depth) (t.act (word ctx ws) (tail ctx ws t.before)).run ctx ws).bind
            fun result ws => .done (leave t.command.schema ws.config.errorColor result) ws :=
  ⟨fun _ => Template.expand_unfields, Text.unfields_fields, fun _ => Text.fields_unfields,
    fun _ text _ _ _ reading => evaluate_text text reading⟩

/-- Two spaces stay two spaces, and a name that is not bound stays as it is. -/
theorem spaced_text_is_expanded_in_place :
    let line := "print  two $of them"
    let ctx : Context := { line, mode := {}, owner := none, transcript := [] }
    read Workspace.isolated.registry line = .runs Builtin.print ["", "two", "$of", "them"] ∧
      tail ctx .isolated 0 = some " two $of them" ∧
      evaluate 1 {} line none [] .isolated =
        (perform (evaluate 0) (Step.respond " two $of them").run ctx .isolated).bind
          fun result ws => .done (leave Builtin.print.schema ws.config.errorColor result) ws := by
  intro line ctx
  have reading : read Workspace.isolated.registry line =
      .runs Builtin.print ["", "two", "$of", "them"] := by
    rw [Workspace.isolated_standard.registry_eq]
    exact read_runs_of_builtin Registry.standard_holdsBuiltins "print" (by simp [builtins])
      (by decide +kernel) (by decide +kernel) (by decide +kernel)
  have text : tail ctx .isolated 0 = some " two $of them" := by decide +kernel
  have evaluated := text_is_expanded_in_place.2.2.2 _ List.mem_cons_self line _ .isolated reading
    0 {} none []
  refine ⟨reading, text, ?_⟩
  rw [evaluated]
  show (perform (evaluate 0) (Step.respond ((tail ctx .isolated 0).getD "")).run ctx
    .isolated).bind _ = _
  rw [text, Option.getD_some]

end Line

end LineScript
