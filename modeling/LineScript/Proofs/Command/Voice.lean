import LineScript.Proofs.Command.Inquiry

/-!
# How commands speak

A builtin command either responds, as often as it likes, or writes, and never does both. The ones
that evaluate a line do neither: `visit`, `assign`, and `if` when there is code for it to run.
`voicing` is the protocol of this, and `builtins_voiced` says that every builtin command keeps to
it.
-/

namespace LineScript

/-- How a command has spoken so far. -/
inductive Voice where
  | silent
  | writing
  | responding
  deriving DecidableEq

namespace Voice

/-- The requests of a command that has spoken so far in this voice. -/
def permits (mute : Bool) (voice : Voice) : Request → Prop
  | .write .. => mute = false ∧ voice ≠ .responding
  | .respond .. => mute = false ∧ voice ≠ .writing
  | _ => True

def answered (voice : Voice) : Request → Voice
  | .write .. => .writing
  | .respond .. => .responding
  | _ => voice

end Voice

/-- A command that is mute evaluates lines and says nothing; any other one speaks in one voice, and
evaluates no line. -/
def voicing (mute : Bool) : Protocol Voice where
  permits := Voice.permits mute
  answered voice r _ := voice.answered r
  nests _ _ _ := mute = true
  returned voice _ := voice
  mayFail _ := True

section

variable {mute : Bool} {voice : Voice}

@[simp] theorem voicing_permits (r : Request) :
    (voicing mute).permits voice r ↔ voice.permits mute r :=
  Iff.rfl

@[simp] theorem voicing_answered :
    (voicing mute).answered = fun (voice : Voice) r _ => voice.answered r :=
  rfl

@[simp] theorem voicing_nests (line : String) (quiet : Bool) :
    (voicing mute).nests voice line quiet ↔ mute = true :=
  Iff.rfl

@[simp] theorem voicing_returned (e : Evaluation) : (voicing mute).returned voice e = voice :=
  rfl

@[simp] theorem voicing_mayFail : (voicing mute).mayFail voice ↔ True :=
  Iff.rfl

end

namespace Command

/-- The command leaves speaking to the line that it evaluates. -/
def isMute (c : Command) (args : List String) : Bool :=
  c.schema.name == "visit" || c.schema.name == "assign" ||
    (c.schema.name == "if" && Text.trim (Builtin.rest args 3) != "")

/-- The command keeps to one voice, whatever its arguments and whoever owns its line. -/
def Voiced (c : Command) : Prop :=
  ∀ owner args, Step.Ensures (voicing (c.isMute args)) owner (c.run args) .silent fun _ _ => True

/-- The command speaks for itself, in one voice. -/
def Outspoken (c : Command) : Prop :=
  ∀ owner args, Step.Ensures (voicing false) owner (c.run args) .silent fun _ _ => True

theorem Outspoken.voiced {c : Command} (h : c.Outspoken) (other : c.schema.name ∉ nesting) :
    c.Voiced := by
  intro owner args
  have speaks : c.isMute args = false := by
    simp only [nesting, List.mem_cons, List.not_mem_nil, or_false, not_or] at other
    simp [isMute, other]
  rw [speaks]
  exact h owner args

end Command

namespace Builtin

attribute [local simp] Voice.permits Voice.answered

section

variable {mute : Bool} {voice : Voice} {owner : Option Instance} {args : List String}

/-! ## Arguments -/

@[simp] theorem voiced_expanded (i : Nat) {post : Voice → String → Prop} :
    Step.Ensures (voicing mute) owner (expanded args i) voice post ↔ ∀ text, post voice text := by
  simp [expanded]

@[simp] theorem voiced_expandedRest (first : Nat) {post : Voice → String → Prop} :
    Step.Ensures (voicing mute) owner (expandedRest args first) voice post ↔
      ∀ text, post voice text := by
  simp [expandedRest]

@[simp] theorem voiced_number? (i : Nat) {post : Voice → Option Binary64 → Prop} :
    Step.Ensures (voicing mute) owner (number? args i) voice post ↔
      ∀ text, post voice (Number.ofText? text) := by
  simp [number?]

@[simp] theorem voiced_integer? (i : Nat) {post : Voice → Option Int → Prop} :
    Step.Ensures (voicing mute) owner (integer? args i) voice post ↔
      ∀ text, post voice (Number.integerOfText? text) := by
  simp [integer?]

theorem voiced_point {post : Voice → Point → Prop} (h : ∀ p, post voice p) :
    Step.Ensures (voicing mute) owner (point args) voice post := by
  simp only [point, Step.ensures_bind, voiced_number?]
  intro x y
  split <;> simp [h]

theorem voiced_listItems (list : String) {post : Voice → List String → Prop}
    (h : ∀ items, post voice items) :
    Step.Ensures (voicing mute) owner (listItems list) voice post := by
  rw [listItems, Step.ensures_bind, Step.ensures_getVariable]
  refine ⟨trivial, fun value => ?_⟩
  split <;> simp [h]

theorem voiced_objectFields (object : String) {post : Voice → Bindings String → Prop}
    (h : ∀ fields, post voice fields) :
    Step.Ensures (voicing mute) owner (objectFields object) voice post := by
  rw [objectFields, Step.ensures_bind, Step.ensures_getVariable]
  refine ⟨trivial, fun value => ?_⟩
  split <;> simp [h]

theorem voiced_targetLine {post : Voice → Nat → Prop} (h : ∀ target, post voice target) :
    Step.Ensures (voicing mute) owner (targetLine args) voice post := by
  simp [targetLine, h]

/-- A response for each item. -/
theorem voiced_forM_respond (lines : List String) (speaks : voice ≠ .writing) :
    Step.Ensures (voicing false) owner (lines.forM fun line => Step.respond line) voice
      fun _ _ => True := by
  induction lines generalizing voice with
  | nil => trivial
  | cons line rest ih =>
    show Step.Ensures _ owner (Step.respond line >>= fun _ => rest.forM _) voice _
    rw [Step.ensures_bind, Step.ensures_respond]
    exact ⟨⟨rfl, speaks⟩, fun _ => ih (by simp)⟩

/-! ## Commands that speak for themselves -/

theorem help_outspoken : help.Outspoken := by
  intro owner args
  rw [help, Step.ensures_ite]
  constructor
  · intro _
    simp only [Step.ensures_bind, Step.ensures_schemas, Step.ensures_respond]
    exact ⟨trivial, fun schemas => ⟨by simp, fun _ => voiced_forM_respond _ (by simp)⟩⟩
  · intro _
    rw [Step.ensures_bind, Step.ensures_schema?]
    refine ⟨trivial, fun schema => ?_⟩
    split <;> simp

theorem run_outspoken : run.Outspoken := by
  intro owner args
  rw [run, Step.ensures_bind]
  refine Step.ensures_mapM (fun a _ post h => by simpa using h) fun names => ?_
  split <;> simp

theorem flow_commands_outspoken : ∀ c ∈ [goto, skip, clear, stop], c.Outspoken := by
  have gone : goto.Outspoken := fun owner args => by
    cases owner <;> simp [goto, voiced_targetLine]
  have skipped : skip.Outspoken := fun owner args => by cases owner <;> simp [skip]
  have cleared : clear.Outspoken := fun owner args => by cases owner <;> simp [clear]
  have stopped : stop.Outspoken := fun owner args => by cases owner <;> simp [stop]
  simp [gone, skipped, cleared, stopped]

theorem output_commands_outspoken : ∀ c ∈ [print, write], c.Outspoken := by
  simp [Command.Outspoken, print, write]

theorem input_commands_outspoken : ∀ c ∈ [readLine, readKey], c.Outspoken := by
  have read : ∀ (f : String → String) (owner : Option Instance), Step.Ensures (voicing false) owner
      (do Step.respond (f (← inputLine))) .silent fun _ _ => True := by
    intro f owner
    simp only [inputLine, Step.ensures_bind, Step.ensures_readInput]
    intro line
    cases line <;> simp
  have line : readLine.Outspoken := fun owner _ => read id owner
  have key : readKey.Outspoken := fun owner _ =>
    read (fun line => String.ofList (line.toList.take 1)) owner
  simp [line, key]

theorem delay_commands_outspoken : ∀ c ∈ [wait, mouseDelay, keyboardDelay], c.Outspoken := by
  simp [Command.Outspoken, wait, mouseDelay, keyboardDelay, delay]

theorem variable_commands_outspoken : ∀ c ∈ [var, deleteVar, glob, deleteGlob], c.Outspoken := by
  simp [Command.Outspoken, var, deleteVar, glob, deleteGlob, nameAndText, variableName]

theorem varType_outspoken : varType.Outspoken := by
  intro owner args
  simp only [varType, givenName, Step.ensures_bind, voiced_expanded, Step.ensures_ite,
    Step.ensures_pure, Step.ensures_getVariable]
  refine fun name => ⟨fun _ => trivial, fun _ => ⟨trivial, fun value => ?_⟩⟩
  split <;> simp

theorem list_commands_outspoken : ∀ c ∈ [listCreate, listAdd, listLength], c.Outspoken := by
  simp [Command.Outspoken, listCreate, listAdd, listLength, givenName, voiced_listItems]

theorem listGet_outspoken : listGet.Outspoken := by
  intro owner args
  simp only [listGet, Step.ensures_bind, voiced_expanded, voiced_integer?, Step.ensures_need,
    Step.ensures_ite]
  refine fun name text => ⟨fun index _ => ⟨fun _ => trivial, fun _ => ?_⟩, fun _ => trivial⟩
  refine voiced_listItems name fun items => ?_
  split <;> simp

theorem object_commands_outspoken : ∀ c ∈ [objCreate, objSet], c.Outspoken := by
  simp [Command.Outspoken, objCreate, objSet, givenName, nameAndKey, voiced_objectFields]

theorem objGet_outspoken : objGet.Outspoken := by
  intro owner args
  simp only [objGet, nameAndKey, Step.ensures_bind, voiced_expanded, Step.ensures_ite,
    Step.ensures_pure]
  refine fun name key => ⟨fun _ => trivial, fun _ => ?_⟩
  refine voiced_objectFields name fun fields => ?_
  split <;> simp

theorem objKeys_outspoken : objKeys.Outspoken := by
  intro owner args
  simp only [objKeys, givenName, Step.ensures_bind, voiced_expanded, Step.ensures_ite,
    Step.ensures_pure]
  refine fun name => ⟨fun _ => trivial, fun _ => ?_⟩
  exact voiced_objectFields name fun fields => voiced_forM_respond _ (by simp)

theorem number_commands_outspoken : ∀ c ∈ [math, isNumeric], c.Outspoken := by
  simp [Command.Outspoken, math, isNumeric, respondNumber]

theorem operation_outspoken : operation.Outspoken := by
  intro owner args
  simp only [operation, Step.ensures_ite]
  refine ⟨fun _ => trivial, fun _ => ?_⟩
  rw [Step.ensures_bind]
  refine Step.ensures_mapM (fun a _ post h => by simp [operand, h]) fun operands => ?_
  rw [Step.ensures_bind, Step.ensures_need]
  refine ⟨fun operators _ => ?_, fun _ => trivial⟩
  split <;> simp [respondNumber]

theorem random_commands_outspoken : ∀ c ∈ [random, randomF], c.Outspoken := by
  have whole : random.Outspoken := by
    intro owner args
    simp only [random, Step.ensures_bind, voiced_integer?]
    intro a b
    split <;> simp
  have fraction : randomF.Outspoken := by
    intro owner args
    simp only [randomF, Step.ensures_bind, voiced_number?]
    intro a b
    split <;> simp
  simp [whole, fraction]

theorem substring_outspoken : substringCommand.Outspoken := by
  intro owner args
  simp only [substringCommand, Step.ensures_bind, voiced_number?]
  intro a b
  split <;> simp

theorem replacement_commands_outspoken : ∀ c ∈ [replace, replaceAll], c.Outspoken := by
  simp [Command.Outspoken, replace, replaceAll, replacement]

theorem button_commands_outspoken : ∀ c ∈ [click, mouseDown, mouseUp], c.Outspoken := by
  simp [Command.Outspoken, click, mouseDown, mouseUp, button]

theorem movement_commands_outspoken : ∀ c ∈ [move, drag, scroll], c.Outspoken := by
  simp [Command.Outspoken, move, drag, scroll, voiced_point]

theorem question_commands_outspoken : ∀ c ∈ [positionCommand, pixel, screenSize],
    c.Outspoken := by
  simp [Command.Outspoken, positionCommand, pixel, screenSize, variablePair, voiced_point]

theorem keyboard_commands_outspoken : ∀ c ∈ [typeCpm, typeText, keyTap, keyDown, keyUp],
    c.Outspoken := by
  simp [Command.Outspoken, typeCpm, typeText, keyTap, keyDown, keyUp, key]

/-! ## Commands that evaluate a line -/

theorem visit_voiced : visit.Voiced := by
  intro owner args
  show Step.Ensures (voicing true) owner _ _ _
  cases owner <;> simp [visit, voiced_targetLine]

theorem assign_voiced : assign.Voiced := by
  intro owner args
  show Step.Ensures (voicing true) owner _ _ _
  simp [assign]

/-- Without code `if` responds, and with code it does not. -/
theorem if_voiced : ifCommand.Voiced := by
  intro owner args
  have mute : ifCommand.isMute args = (Text.trim (rest args 3) != "") := by
    simp [Command.isMute, ifCommand, Schema.name]
  rw [mute]
  simp only [ifCommand, Step.ensures_bind, voiced_expanded]
  generalize Text.trim (rest args 3) = code
  intro a b
  split
  · trivial
  · simp

end

end Builtin

open Builtin in
theorem builtins_outspoken : ∀ c ∈ builtins, c.schema.name ∈ nesting ∨ c.Outspoken := by
  have nests : visit.schema.name ∈ nesting ∧ ifCommand.schema.name ∈ nesting ∧
      assign.schema.name ∈ nesting := by decide
  simp only [builtins, List.forall_mem_cons]
  simp [nests, help_outspoken, run_outspoken, flow_commands_outspoken, output_commands_outspoken,
    input_commands_outspoken, delay_commands_outspoken, variable_commands_outspoken,
    varType_outspoken, list_commands_outspoken, listGet_outspoken, object_commands_outspoken,
    objGet_outspoken, objKeys_outspoken, number_commands_outspoken, operation_outspoken,
    random_commands_outspoken, substring_outspoken, replacement_commands_outspoken,
    button_commands_outspoken, movement_commands_outspoken, question_commands_outspoken,
    keyboard_commands_outspoken]

open Builtin in
theorem builtins_voiced : ∀ c ∈ builtins, c.Voiced := by
  intro c builtin
  by_cases nests : c.schema.name ∈ nesting
  · rcases nesting_cases c builtin nests with rfl | rfl | rfl
    · exact visit_voiced
    · exact if_voiced
    · exact assign_voiced
  · exact ((builtins_outspoken c builtin).resolve_left nests).voiced nests

end LineScript
