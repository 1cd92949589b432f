import LineScript.Command.Builtin
import LineScript.Line.Evaluate
import LineScript.Proofs.Text.Part

/-!
# Reading a line

Before anything is done a line is read: it is idle, or its first field names a command, which is
known or not. `Line.evaluate_succ` splits the evaluation of a line at this point, so that proofs
about evaluations go case by case through `Reading`.

A line that runs a builtin command is known by the name of the command, and the arguments of the
command are a part of the line as it is written.
-/

namespace LineScript.Line

/-- What a line asks for. -/
inductive Reading where
  | idle
  | unknown (name : String)
  | runs (command : Command) (args : List String)

def read (registry : Registry) (line : String) : Reading :=
  if isIdle (content line) then .idle
  else
    match Text.fields (content line) with
    | [] => .idle
    | name :: args =>
      match registry.find? name with
      | none => .unknown name
      | some command => .runs command args

section

variable {registry : Registry} {line : String}

theorem find?_of_read_unknown {name : String} (h : read registry line = .unknown name) :
    registry.find? name = none := by
  unfold read at h
  split at h
  · cases h
  · split at h
    · cases h
    · split at h
      · rename_i missing
        cases h
        exact missing
      · cases h

theorem find?_of_read_runs {command : Command} {args : List String}
    (h : read registry line = .runs command args) :
    ∃ name, Text.fields (content line) = name :: args ∧ registry.find? name = some command := by
  unfold read at h
  split at h
  · cases h
  · split at h
    · cases h
    · rename_i name fields split
      split at h
      · cases h
      · rename_i found
        cases h
        exact ⟨name, split, found⟩

theorem read_runs_of_find? {name : String} {command : Command} {args : List String}
    (counts : isIdle (content line) = false) (split : Text.fields (content line) = name :: args)
    (found : registry.find? name = some command) : read registry line = .runs command args := by
  simp [read, counts, split, found]

end

/-! ## Evaluating what was read -/

/-- What a command leaves behind: its fault, if it ended in one, is reported. -/
def leave (schema : Schema) (color : String) (result : Except Fault Unit × Context) : Ended :=
  match result.1 with
  | .ok () => ended result.2
  | .error fault => ended (result.2.report color (faultText schema fault))

theorem evaluate_succ (depth : Nat) (mode : Mode) (line : String) (owner : Option Instance)
    (transcript : List Message) (ws : Workspace) :
    evaluate (depth + 1) mode line owner transcript ws =
      let ctx : Context := { line, mode, owner, transcript }
      match read ws.registry line with
      | .idle => .done ⟨{}, owner, transcript⟩ ws
      | .unknown name =>
        .done (ended (ctx.report ws.config.errorColor (unknownCommand name))) ws
      | .runs command args =>
        (perform (evaluate depth) (command.run args).run ctx ws).bind fun result ws =>
          .done (leave command.schema ws.config.errorColor result) ws := by
  rw [evaluate, read]
  by_cases idle : isIdle (content line) = true
  · rw [if_pos idle, if_pos idle]
  · rw [if_neg idle, if_neg idle]
    cases Text.fields (content line) with
    | nil => rfl
    | cons name args =>
      cases found : ws.registry.find? name with
      | none => simp only [found]
      | some command =>
        simp only [found]
        congr 1
        funext result ws
        obtain ⟨outcome, ctx⟩ := result
        cases outcome <;> rfl

/-- No line is given so little depth that it is not looked at. -/
theorem exists_depthBound_eq_succ (line : String) (extent : Nat) :
    ∃ depth, depthBound line extent = depth + 1 :=
  Nat.exists_eq_succ_of_ne_zero (by rw [depthBound, spareDepth]; omega)

/-! ## Builtin commands -/

/-- The builtin command that a line runs, by its own name. -/
def command? (line : String) : Option String :=
  match read Registry.standard line with
  | .runs command _ => some command.schema.name
  | _ => none

theorem isPart_content (line : String) : Text.IsPart (content line) (Text.dropReturns line) := by
  refine Text.IsPart.dropReturns (List.IsSuffix.isInfix ?_)
  rw [Text.toList_trimStart]
  exact List.dropWhile_suffix _

/-- The line runs the command with these arguments, put together again. -/
structure Runs (line name raw : String) : Prop where
  command : command? line = some name
  written : Text.IsPart raw (Text.dropReturns line)

theorem runs_of_read {line : String} {command : Command} {args : List String}
    (h : read Registry.standard line = .runs command args) :
    Runs line command.schema.name (Text.unfields args) where
  command := by
    unfold command?
    simp only [h]
  written := by
    obtain ⟨name, split, -⟩ := find?_of_read_runs h
    have tail := Text.isPart_unfields_tail name args
    rw [← split, Text.unfields_fields] at tail
    exact tail.trans (isPart_content line)

end LineScript.Line
