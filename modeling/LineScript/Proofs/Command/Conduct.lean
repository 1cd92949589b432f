import LineScript.Command.Builtin
import LineScript.Proofs.Command.Index
import LineScript.Proofs.Command.Protocol
import LineScript.Proofs.Text.Part

/-!
# The conduct of the builtin commands

All builtin commands keep to one protocol, `conduct`. Besides asking and setting things, a command

* replaces references only in texts that stand in its arguments,
* goes to a line or evaluates one, once and not both. It goes only to another line inside the
  source. A line that it evaluates is one of the source or stands in its arguments,
* never reports an error itself. It ends in a fault, which is reported for it, or it ends well; if
  the line that it evaluated has failed, it ends well without another word.

`builtins_behave` says so of every builtin command, and `Registry.behaves_of_find?` of whatever the
standard registry finds.
-/

namespace LineScript

/-- How far a command has come. -/
inductive Stage where
  /-- It has neither gone to a line nor evaluated one. -/
  | fresh
  /-- It has done one of the two. If it was to evaluate a line, that line may have failed. -/
  | spent (failed : Bool)
  deriving DecidableEq

/-- Nothing has failed yet, so the command may speak, and fail itself. -/
def Stage.Open : Stage → Prop
  | .spent true => False
  | _ => True

@[simp] theorem Stage.open_fresh : Stage.fresh.Open := trivial

@[simp] theorem Stage.open_spent {failed : Bool} : (Stage.spent failed).Open ↔ failed = false := by
  cases failed <;> simp [Open]

namespace Conduct

/-- The line is another one of the owner's source. -/
def Reaches (owner : Option Instance) (target : Nat) : Prop :=
  ∃ i, owner = some i ∧ target < i.source.length ∧ target ≠ i.counter

/-- The requests of the command `name`, where `raw` are its arguments as they are written. -/
def permits (name raw : String) (owner : Option Instance) (s : Stage) : Request → Prop
  | .report _ => False
  | .write .. => s.Open
  | .respond .. => s.Open
  | .clearScreen => s.Open
  | .jump target => s = .fresh ∧ (name = "goto" ∨ name = "skip") ∧ Reaches owner target
  | .expand template => Text.IsPart template raw
  | _ => True

def answered (s : Stage) : Request → Stage
  | .jump _ => .spent false
  | _ => s

/-- A line that a command evaluates is one of the source, or was written where it stands. -/
def Wrote (name raw : String) (owner : Option Instance) (line : String) : Prop :=
  name = "visit" ∧ (∃ i, owner = some i ∧ line ∈ i.source) ∨
    (name = "if" ∨ name = "assign") ∧ Text.IsPart line raw

end Conduct

/-- What the builtin command `name` does with the arguments `raw`. -/
def conduct (name raw : String) (owner : Option Instance) : Protocol Stage where
  permits := Conduct.permits name raw owner
  answered s r _ := Conduct.answered s r
  nests s line _ := s = .fresh ∧ Conduct.Wrote name raw owner line
  returned _ e := .spent e.failed
  mayFail := Stage.Open

section

variable {name raw : String} {owner : Option Instance} {s : Stage}

@[simp] theorem conduct_permits (r : Request) :
    (conduct name raw owner).permits s r ↔ Conduct.permits name raw owner s r :=
  Iff.rfl

@[simp] theorem conduct_answered :
    (conduct name raw owner).answered = fun s r _ => Conduct.answered s r :=
  rfl

@[simp] theorem conduct_nests (line : String) (quiet : Bool) :
    (conduct name raw owner).nests s line quiet ↔
      s = .fresh ∧ Conduct.Wrote name raw owner line :=
  Iff.rfl

@[simp] theorem conduct_returned (e : Evaluation) :
    (conduct name raw owner).returned s e = .spent e.failed :=
  rfl

@[simp] theorem conduct_mayFail : (conduct name raw owner).mayFail s ↔ s.Open :=
  Iff.rfl

end

/-- The command keeps to the protocol, whatever its arguments and whoever owns its line. -/
def Command.Behaves (c : Command) : Prop :=
  ∀ owner args, Step.Ensures (conduct c.schema.name (Text.unfields args) owner) owner
    (c.run args) .fresh fun _ _ => True

namespace Builtin

attribute [local simp] Conduct.permits Conduct.answered

/-! ## Arguments -/

@[simp] theorem isPart_arg (args : List String) (i : Nat) :
    Text.IsPart (arg args i) (Text.unfields args) := by
  rw [arg, List.getD_eq_getElem?_getD]
  cases found : args[i]? with
  | none => exact Text.isPart_empty _
  | some a => exact Text.isPart_unfields_of_mem (List.mem_of_getElem? found)

@[simp] theorem isPart_rest (args : List String) (first : Nat) :
    Text.IsPart (rest args first) (Text.unfields args) :=
  Text.isPart_unfields_drop args first

section

variable {name : String} {owner : Option Instance} {s : Stage} {args : List String}

@[simp] theorem ensures_expanded (i : Nat) {post : Stage → String → Prop} :
    Step.Ensures (conduct name (Text.unfields args) owner) owner (expanded args i) s post ↔
      ∀ text, post s text := by
  simp [expanded]

@[simp] theorem ensures_expandedRest (first : Nat) {post : Stage → String → Prop} :
    Step.Ensures (conduct name (Text.unfields args) owner) owner (expandedRest args first) s post ↔
      ∀ text, post s text := by
  simp [expandedRest]

@[simp] theorem ensures_number? (i : Nat) {post : Stage → Option Binary64 → Prop} :
    Step.Ensures (conduct name (Text.unfields args) owner) owner (number? args i) s post ↔
      ∀ text, post s (Number.ofText? text) := by
  simp [number?]

@[simp] theorem ensures_integer? (i : Nat) {post : Stage → Option Int → Prop} :
    Step.Ensures (conduct name (Text.unfields args) owner) owner (integer? args i) s post ↔
      ∀ text, post s (Number.integerOfText? text) := by
  simp [integer?]

theorem ensures_point {post : Stage → Point → Prop} (mayFail : s.Open) (h : ∀ p, post s p) :
    Step.Ensures (conduct name (Text.unfields args) owner) owner (point args) s post := by
  simp only [point, Step.ensures_bind, ensures_number?]
  intro x y
  split
  · exact h _
  · exact mayFail

theorem ensures_listItems (list : String) {post : Stage → List String → Prop} (mayFail : s.Open)
    (h : ∀ items, post s items) :
    Step.Ensures (conduct name (Text.unfields args) owner) owner (listItems list) s post := by
  rw [listItems, Step.ensures_bind, Step.ensures_getVariable]
  refine ⟨trivial, fun value => ?_⟩
  split
  · exact h _
  · exact mayFail
  · exact mayFail

theorem ensures_objectFields (object : String) {post : Stage → Bindings String → Prop}
    (mayFail : s.Open) (h : ∀ fields, post s fields) :
    Step.Ensures (conduct name (Text.unfields args) owner) owner (objectFields object) s post := by
  rw [objectFields, Step.ensures_bind, Step.ensures_getVariable]
  refine ⟨trivial, fun value => ?_⟩
  split
  · exact h _
  · exact mayFail
  · exact mayFail

theorem ensures_inputLine {post : Stage → String → Prop} (mayFail : s.Open)
    (h : ∀ line, post s line) :
    Step.Ensures (conduct name (Text.unfields args) owner) owner inputLine s post := by
  rw [inputLine, Step.ensures_bind, Step.ensures_readInput]
  intro line
  split
  · exact h _
  · exact mayFail

theorem ensures_operand {template : String} (written : template ∈ args)
    {post : Stage → Binary64 → Prop} (mayFail : s.Open) (h : ∀ x, post s x) :
    Step.Ensures (conduct name (Text.unfields args) owner) owner (operand template) s post := by
  simp only [operand, Step.ensures_bind, Step.ensures_expand, Step.ensures_need]
  exact ⟨Text.isPart_unfields_of_mem written, fun _ => ⟨fun x _ => h x, fun _ => mayFail⟩⟩

/-- A target line is inside the source. -/
theorem ensures_targetLine {i : Instance} {post : Stage → Nat → Prop} (mayFail : s.Open)
    (h : ∀ target, target < i.source.length → post s target) :
    Step.Ensures (conduct name (Text.unfields args) (some i)) (some i) (targetLine args) s
      post := by
  simp only [targetLine, Step.ensures_bind, ensures_integer?, Step.ensures_need,
    Step.ensures_source]
  refine fun text => ⟨fun line _ => ⟨trivial, fun source same => ?_⟩, fun _ => mayFail⟩
  rw [same i rfl, Step.ensures_ite]
  refine ⟨fun inside => h _ ?_, fun _ => mayFail⟩
  omega

end

/-! ## Commands that evaluate no line and go nowhere

What they ask for is permitted at every stage, so it is enough to walk through their requests. -/

theorem help_behaves : help.Behaves := by
  intro owner args
  rw [help, Step.ensures_ite]
  constructor
  · intro _
    simp only [Step.ensures_bind, Step.ensures_schemas, Step.ensures_respond]
    refine ⟨trivial, fun schemas => ⟨trivial, fun _ => Step.ensures_forM ?_ trivial⟩⟩
    intro line _ post h
    simpa using fun _ => h
  · intro _
    rw [Step.ensures_bind, Step.ensures_schema?]
    refine ⟨trivial, fun schema => ?_⟩
    split <;> simp

theorem run_behaves : run.Behaves := by
  intro owner args
  rw [run, Step.ensures_bind]
  refine Step.ensures_mapM ?_ fun names => ?_
  · intro a mem post h
    have written := (Text.isPart_trim a).trans (Text.isPart_unfields_of_mem mem)
    simpa [written] using h
  · split <;> simp

theorem owner_commands_behave : ∀ c ∈ [clear, stop], c.Behaves := by
  have cleared : clear.Behaves := fun owner args => by cases owner <;> simp [clear]
  have stopped : stop.Behaves := fun owner args => by cases owner <;> simp [stop]
  simp [cleared, stopped]

theorem output_commands_behave : ∀ c ∈ [print, write], c.Behaves := by
  simp [Command.Behaves, print, write]

theorem input_commands_behave : ∀ c ∈ [readLine, readKey], c.Behaves := by
  simp [Command.Behaves, readLine, readKey, ensures_inputLine]

theorem delay_commands_behave : ∀ c ∈ [wait, mouseDelay, keyboardDelay], c.Behaves := by
  simp [Command.Behaves, wait, mouseDelay, keyboardDelay, delay]

theorem variable_commands_behave : ∀ c ∈ [var, deleteVar, glob, deleteGlob], c.Behaves := by
  simp [Command.Behaves, var, deleteVar, glob, deleteGlob, nameAndText, variableName]

theorem varType_behaves : varType.Behaves := by
  intro owner args
  simp only [varType, givenName, Step.ensures_bind, ensures_expanded, Step.ensures_ite,
    Step.ensures_pure, Step.ensures_getVariable]
  refine fun name => ⟨fun _ => trivial, fun _ => ⟨trivial, fun value => ?_⟩⟩
  split <;> simp

theorem list_commands_behave : ∀ c ∈ [listCreate, listAdd, listLength], c.Behaves := by
  simp [Command.Behaves, listCreate, listAdd, listLength, givenName, ensures_listItems]

theorem listGet_behaves : listGet.Behaves := by
  intro owner args
  simp only [listGet, Step.ensures_bind, ensures_expanded, ensures_integer?, Step.ensures_need,
    Step.ensures_ite]
  refine fun name text => ⟨fun index _ => ⟨fun _ => trivial, fun _ => ?_⟩, fun _ => trivial⟩
  refine ensures_listItems name trivial fun items => ?_
  split <;> simp

theorem object_commands_behave : ∀ c ∈ [objCreate, objSet], c.Behaves := by
  simp [Command.Behaves, objCreate, objSet, givenName, nameAndKey, ensures_objectFields]

theorem objGet_behaves : objGet.Behaves := by
  intro owner args
  simp only [objGet, nameAndKey, Step.ensures_bind, ensures_expanded, Step.ensures_ite,
    Step.ensures_pure]
  refine fun name key => ⟨fun _ => trivial, fun _ => ?_⟩
  refine ensures_objectFields name trivial fun fields => ?_
  split <;> simp

theorem objKeys_behaves : objKeys.Behaves := by
  intro owner args
  simp only [objKeys, givenName, Step.ensures_bind, ensures_expanded, Step.ensures_ite,
    Step.ensures_pure]
  refine fun name => ⟨fun _ => trivial, fun _ => ?_⟩
  refine ensures_objectFields name trivial fun fields => Step.ensures_forM ?_ trivial
  intro key _ post h
  simpa using fun _ => h

theorem number_commands_behave : ∀ c ∈ [math, isNumeric], c.Behaves := by
  simp [Command.Behaves, math, isNumeric, respondNumber]

theorem mem_of_mem_everyOther {args : List String} {a : String} (h : a ∈ everyOther args) :
    a ∈ args := by
  fun_induction everyOther args with
  | case1 => cases h
  | case2 x => exact h
  | case3 x y rest ih =>
    rcases List.mem_cons.mp h with rfl | later
    · exact List.mem_cons_self
    · exact List.mem_cons_of_mem x (List.mem_cons_of_mem y (ih later))

theorem operation_behaves : operation.Behaves := by
  intro owner args
  simp only [operation, Step.ensures_ite]
  refine ⟨fun _ => trivial, fun _ => ?_⟩
  rw [Step.ensures_bind]
  refine Step.ensures_mapM ?_ fun operands => ?_
  · exact fun a mem post h => ensures_operand (mem_of_mem_everyOther mem) trivial h
  · rw [Step.ensures_bind, Step.ensures_need]
    refine ⟨fun operators _ => ?_, fun _ => trivial⟩
    split <;> simp [respondNumber]

theorem random_behaves : random.Behaves := by
  intro owner args
  simp only [random, Step.ensures_bind, ensures_integer?]
  intro a b
  split <;> simp

theorem randomF_behaves : randomF.Behaves := by
  intro owner args
  simp only [randomF, Step.ensures_bind, ensures_number?]
  intro a b
  split <;> simp

theorem substring_behaves : substringCommand.Behaves := by
  intro owner args
  simp only [substringCommand, Step.ensures_bind, ensures_number?]
  intro a b
  split <;> simp

theorem replacement_commands_behave : ∀ c ∈ [replace, replaceAll], c.Behaves := by
  simp [Command.Behaves, replace, replaceAll, replacement]

theorem button_commands_behave : ∀ c ∈ [click, mouseDown, mouseUp], c.Behaves := by
  simp [Command.Behaves, click, mouseDown, mouseUp, button]

theorem movement_commands_behave : ∀ c ∈ [move, drag, scroll], c.Behaves := by
  simp [Command.Behaves, move, drag, scroll, ensures_point]

theorem question_commands_behave : ∀ c ∈ [positionCommand, pixel, screenSize], c.Behaves := by
  simp [Command.Behaves, positionCommand, pixel, screenSize, variablePair, ensures_point]

theorem keyboard_commands_behave : ∀ c ∈ [typeCpm, typeText, keyTap, keyDown, keyUp],
    c.Behaves := by
  simp [Command.Behaves, typeCpm, typeText, keyTap, keyDown, keyUp, key]

/-! ## Going to a line -/

theorem goto_behaves : goto.Behaves := by
  intro owner args
  cases owner with
  | none => simp [goto]
  | some i =>
    simp only [goto, Step.ensures_bind, Step.ensures_instanceName, Option.map_some]
    refine ⟨trivial, ensures_targetLine trivial fun target inside => ?_⟩
    rw [Step.ensures_currentIndex]
    refine ⟨trivial, fun index here => ?_⟩
    simp only [here i rfl, Step.ensures_ite, Step.ensures_bind, Step.ensures_throw,
      Step.ensures_discard, Step.ensures_jump]
    refine ⟨fun _ => trivial, fun elsewhere => ⟨⟨rfl, .inl rfl, i, rfl, inside, elsewhere⟩, ?_⟩⟩
    exact fun _ => trivial

/-- An exact whole number is small. -/
theorem natAbs_le_of_integerOfText? {text : String} {n : Int}
    (h : Number.integerOfText? text = some n) : n.natAbs ≤ Number.largestExact := by
  obtain ⟨x, -, whole⟩ := Option.bind_eq_some_iff.mp h
  split at whole
  · rename_i exact
    cases whole
    simpa using (Bool.and_eq_true_iff.mp exact).2
  · cases whole

/-- The sum is taken modulo `2 ^ 64`, and no amount but zero comes back to the same index. -/
theorem skip_target_ne {index : Nat} {amount : Int} (small : amount.natAbs ≤ Number.largestExact)
    (moves : amount ≠ 0) (inside : 0 ≤ signedIndex index + amount) :
    (signedIndex index + amount).toNat ≠ index := by
  have wraps : (18446744073709551616 : Int) ∣ signedIndex index - index :=
    Int.dvd_bmod_sub_self (x := index) (m := UInt64.size)
  simp only [Number.largestExact] at small
  omega

theorem skip_behaves : skip.Behaves := by
  intro owner args
  cases owner with
  | none => simp [skip]
  | some i =>
    simp only [skip, Step.ensures_bind, Step.ensures_instanceName, Option.map_some,
      ensures_integer?, Step.ensures_need, Step.ensures_currentIndex, Step.ensures_source,
      Step.ensures_ite, Step.ensures_discard, Step.ensures_jump]
    refine ⟨trivial, fun text => ⟨fun amount read => ?_, fun _ => trivial⟩⟩
    refine ⟨trivial, fun index here => ⟨trivial, fun source same => ?_⟩⟩
    rw [here i rfl, same i rfl]
    refine ⟨fun _ => trivial, fun inside => ⟨fun _ => trivial, fun moves => ?_⟩⟩
    have ahead : 0 ≤ signedIndex i.counter + amount := by omega
    have elsewhere := skip_target_ne (natAbs_le_of_integerOfText? read) moves ahead
    refine ⟨⟨rfl, .inr rfl, i, rfl, ?_, elsewhere⟩, fun _ => trivial⟩
    omega

/-! ## Evaluating a line -/

theorem visit_behaves : visit.Behaves := by
  intro owner args
  cases owner with
  | none => simp [visit]
  | some i =>
    simp only [visit, Step.ensures_bind, Step.ensures_instanceName, Option.map_some]
    refine ⟨trivial, ensures_targetLine trivial fun target inside => ?_⟩
    rw [Step.ensures_currentIndex]
    refine ⟨trivial, fun index here => ?_⟩
    rw [Step.ensures_ite]
    refine ⟨fun _ => trivial, fun _ => ?_⟩
    rw [Step.ensures_bind, Step.ensures_source]
    refine ⟨trivial, fun source same => ?_⟩
    rw [same i rfl, Step.ensures_discard, Step.ensures_evaluate]
    refine ⟨⟨rfl, .inl ⟨rfl, i, rfl, ?_⟩⟩, fun _ => trivial⟩
    rw [List.getD_eq_getElem?_getD, List.getElem?_eq_getElem inside]
    exact List.getElem_mem inside

theorem if_behaves : ifCommand.Behaves := by
  intro owner args
  have written : Text.IsPart (Text.trim (rest args 3)) (Text.unfields args) :=
    (Text.isPart_trim _).trans (isPart_rest args 3)
  simp only [ifCommand, Step.ensures_bind, ensures_expanded]
  intro a b
  split
  · trivial
  · rw [Step.ensures_ite]
    refine ⟨fun _ => trivial, fun _ => ?_⟩
    rw [Step.ensures_bind, Step.ensures_ofExcept]
    refine ⟨fun holds _ => ?_, fun _ _ => trivial⟩
    simp only [Step.ensures_ite, Step.ensures_respond, Step.ensures_discard, Step.ensures_evaluate]
    refine ⟨fun _ => ⟨trivial, fun _ => trivial⟩, fun _ => ⟨fun _ => ?_, fun _ => trivial⟩⟩
    exact ⟨⟨rfl, .inr ⟨.inl rfl, written⟩⟩, fun _ => trivial⟩

/-- If the line has failed, nothing is assigned and so nothing else can fail. -/
theorem assign_behaves : assign.Behaves := by
  intro owner args
  simp only [assign, Step.ensures_bind, ensures_expanded, Step.ensures_ite, Step.ensures_evaluate,
    Step.ensures_assign, Step.ensures_ofExcept]
  refine fun name => ⟨fun _ => trivial, fun _ => ⟨⟨rfl, .inr ⟨.inr rfl, isPart_rest args 1⟩⟩, ?_⟩⟩
  refine fun e => ⟨fun good => ⟨trivial, fun _ => ⟨fun _ _ => trivial, fun _ _ => ?_⟩⟩, ?_⟩
  · simpa using good.1
  · exact fun _ => trivial

end Builtin

open Builtin in
theorem builtins_behave : ∀ c ∈ builtins, c.Behaves := by
  simp only [builtins, List.forall_mem_cons]
  simp [help_behaves, run_behaves, goto_behaves, skip_behaves, visit_behaves, if_behaves,
    assign_behaves, operation_behaves, random_behaves, randomF_behaves, substring_behaves,
    varType_behaves, listGet_behaves, objGet_behaves, objKeys_behaves, owner_commands_behave,
    output_commands_behave, input_commands_behave, delay_commands_behave,
    variable_commands_behave, list_commands_behave, object_commands_behave,
    number_commands_behave, replacement_commands_behave, button_commands_behave,
    movement_commands_behave, question_commands_behave, keyboard_commands_behave]

/-! ## The standard registry -/

namespace Registry

theorem mem_ofCommands {commands : List Command} {c : Command}
    (h : c ∈ (ofCommands commands).commands) : ∃ b ∈ commands, c = folded Text.lowercase b := by
  rw [show ofCommands commands = registerAll {} commands from rfl, commands_registerAll] at h
  obtain ⟨b, mem, rfl⟩ := List.mem_map.mp h
  exact ⟨b, (accepted_sublist _ _).subset mem, rfl⟩

/-- The names of the builtin commands are in lower case, so folding them changes nothing. -/
theorem folded_names : ∀ b ∈ builtins, (folded Text.lowercase b).schema.names = b.schema.names := by
  decide +kernel

/-- Whatever the standard registry finds keeps to the protocol. -/
theorem behaves_of_find? {name : String} {c : Command} (found : standard.find? name = some c) :
    c.Behaves := by
  obtain ⟨b, builtin, rfl⟩ := mem_ofCommands (mem_commands_of_find? found)
  intro owner args
  rw [Schema.name, folded_names b builtin]
  exact builtins_behave b builtin owner args

end Registry

end LineScript
