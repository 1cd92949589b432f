import LineScript.Proofs.Command.Inquiry

/-!
# Commands ask first and act once

A builtin command makes inquiries, which change nothing, and then does one thing: it ends in a
fault, it says something, it goes to a line, it makes one change, it waits, or it evaluates a line.
Whatever can go wrong with its arguments goes wrong before that, and what it does last decides how
it ends. Only `position` and `screensize` set two variables, so only they can fail half-way.

`Action.Learns` is the weakest precondition of a series of inquiries, `Action.Final` lists what a
command may do last, and `Action.Resolves` puts the two together. `builtins_resolve` says of every
builtin command that it does no more.
-/

namespace LineScript

/-! ## Names -/

/-- The names of the commands that set two variables. -/
def pairing : List String :=
  ["position", "screensize"]

theorem not_mem_pairing_of_mem_nesting {name : String} (nests : name ∈ nesting) :
    name ∉ pairing := by
  revert name
  decide

/-- The names of the commands that draw random numbers. -/
def drawing : List String :=
  ["random", "randomf"]

theorem not_mem_drawing_of_mem_nesting {name : String} (nests : name ∈ nesting) :
    name ∉ drawing := by
  revert name
  decide

/-- The names of the commands that wait for something. -/
def pausing : List String :=
  ["run", "wait", "readline", "readkey"]

theorem not_mem_pausing_of_mem_nesting {name : String} (nests : name ∈ nesting) :
    name ∉ pausing := by
  revert name
  decide

/-! ## Requests -/

/-- A list with one more item, or an object with a key set. -/
inductive Value.Extends : Value → Value → Prop where
  | list (items : List String) (item : String) : Extends (.list items) (.list (items ++ [item]))
  | object (fields : Bindings String) (key text : String) :
      Extends (.object fields) (.object (fields.insert key text))

namespace Request

/-- The request of the command `name` changes nothing but what is drawn next at random. Which lines
a script has, and on which of them it is, is for its own lines to ask. -/
def isInquiry (name : String) (owner : Option Instance) : Request → Bool
  | .currentIndex => owner.isSome
  | .source => owner.isSome
  | .instanceName => true
  | .expand _ => true
  | .variable _ => true
  | .schemas => true
  | .schema _ => true
  | .position => true
  | .pixel _ => true
  | .screenSize => true
  | .typingSpeed => true
  | .draw _ => decide (name ∈ drawing)
  | _ => false

/-- The request has its line say something. -/
def isRemark : Request → Bool
  | .write .. => true
  | .respond .. => true
  | .clearScreen => true
  | _ => false

/-- The request is to change variables or settings, or to have the device act. -/
def isChange : Request → Bool
  | .assign .. => true
  | .update .. => true
  | .remove _ => true
  | .assignGlobal .. => true
  | .removeGlobal _ => true
  | .act _ => true
  | .setTypingSpeed _ => true
  | _ => false

/-- How a command ends whose last request is answered so. -/
def verdict : (r : Request) → r.Reply → Except Fault Unit
  | .assign .., reply => Except.mapError Fault.assign reply
  | .update .., reply => Except.mapError Fault.assign reply
  | .assignGlobal .., reply => Except.mapError Fault.assign reply
  | .act _, reply => Except.mapError Fault.device reply
  | _, _ => .ok ()

theorem isInquiry_of_isRemark {name : String} {owner : Option Instance} {r : Request}
    (remark : r.isRemark = true) : r.isInquiry name owner = false := by
  cases r <;> simp_all [isRemark, isInquiry]

theorem isChange_of_isInquiry {name : String} {owner : Option Instance} {r : Request}
    (inquiry : r.isInquiry name owner = true) : r.isChange = false := by
  cases r <;> simp_all [isChange, isInquiry]

theorem isInquiry_of_isChange {name : String} {owner : Option Instance} {r : Request}
    (change : r.isChange = true) : r.isInquiry name owner = false := by
  cases r <;> simp_all [isChange, isInquiry]

/-- To remove variables is left to the commands that are there for it, and so is to create a list
and to change one. A variable that is global by its command is a text. -/
def Suits (name : String) : Request → Prop
  | .remove _ => name = "deletevar"
  | .removeGlobal _ => name = "deleteglob"
  | .assign _ (.list _) => name = "listcreate"
  | .update _ (.list _) => name = "listadd"
  | .assignGlobal _ value => value.kind = .text
  | _ => True

/-- A line tells the truth about its owner, and about the variables that it sees. -/
def Faithful (owner : Option Instance) (look : String → Option Value) (r : Request)
    (reply : r.Reply) : Prop :=
  r.Truthful owner reply ∧
    match r, reply with
    | .variable name, value => value = look name
    | _, _ => True

/-- A variable that is changed where it is seen keeps what was seen there, with something added. -/
def Renews (look : String → Option Value) : Request → Prop
  | .update name value => ∃ old, look name = some old ∧ old.Extends value
  | _ => True

end Request

/-- What a command does last. -/
abbrev Ending := Action (Except Fault Unit)

namespace Action

variable {α β : Type} {owner : Option Instance} {name : String}
  {look : String → Option Value}

/-! ## The last thing that a command does -/

/-- The action says what it has to say and ends well. -/
def Remarks : Ending → Prop
  | .done result => result = .ok ()
  | .ask r next => r.isRemark = true ∧ ∀ reply, (next reply).Remarks
  | _ => False

/-- The action sets a variable to a text, and how it ends is up to the reply. -/
inductive Assigns : Ending → Prop where
  | assign {target text : String} {next : Except AssignError Unit → Ending}
      (ends : ∀ reply, next reply = .done (Request.verdict (.assign target (.text text)) reply)) :
      Assigns (.ask (.assign target (.text text)) next)

/-- After a line that it has evaluated the action ends well, or it sets a variable if the line has
responded something and has not failed. -/
def Follows (e : Evaluation) (next : Ending) : Prop :=
  next = .done (.ok ()) ∨ e.failed = false ∧ e.captured ≠ "" ∧ next.Assigns

/-- What the command `name` may do last, on a line that sees these variables. -/
inductive Final (name : String) (look : String → Option Value) : Ending → Prop where
  | fault (fault : Fault) : Final name look (.done (.error fault))
  | remarks {action : Ending} (remarks : action.Remarks) : Final name look action
  | jump {index : Nat} {next : Bool → Ending} (ends : ∀ reply, next reply = .done (.ok ())) :
      Final name look (.ask (.jump index) next)
  | change {r : Request} {next : r.Reply → Ending} (change : r.isChange = true)
      (suits : r.Suits name) (renews : r.Renews look)
      (ends : ∀ reply, next reply = .done (r.verdict reply)) :
      Final name look (.ask r next)
  | pair {first text : String} {next : Except AssignError Unit → Ending}
      (pairs : name ∈ pairing) (second : (next (.ok ())).Assigns)
      (refused : ∀ e, next (.error e) = .done (.error (.assign e))) :
      Final name look (.ask (.assign first (.text text)) next)
  | sleep {duration : Duration} (pauses : name ∈ pausing) :
      Final name look (.sleep duration (.done (.ok ())))
  | start {names : List String} {next : Except StartError Unit → Ending} (pauses : name ∈ pausing)
      (ends : ∀ result, next result = .done (result.mapError .start)) :
      Final name look (.runScripts names next)
  | read {next : Option String → Ending} (pauses : name ∈ pausing)
      (ends : ∀ line, (∃ fault, next line = .done (.error fault)) ∨ (next line).Remarks) :
      Final name look (.readInput next)
  | nest {line : String} {quiet : Bool} {next : Evaluation → Ending} (nests : name ∈ nesting)
      (follows : ∀ e, (next e).Follows e) : Final name look (.evaluate line quiet next)

/-- The action makes inquiries, and then does one more thing. -/
def Resolves (name : String) (owner : Option Instance) (look : String → Option Value) :
    Ending → Prop
  | .ask r next =>
    if r.isInquiry name owner then
      ∀ reply, r.Faithful owner look reply → (next reply).Resolves name owner look
    else Final name look (.ask r next)
  | action => Final name look action

/-- The action makes inquiries, and `post` holds of the value that it comes to. -/
def Learns (name : String) (owner : Option Instance) (look : String → Option Value) :
    Action α → (α → Prop) → Prop
  | .done value, post => post value
  | .ask r next, post =>
    r.isInquiry name owner = true ∧
      ∀ reply, r.Faithful owner look reply → (next reply).Learns name owner look post
  | _, _ => False

theorem learns_bind (x : Action α) (f : α → Action β) (post : β → Prop) :
    (x.bind f).Learns name owner look post ↔
      x.Learns name owner look fun value => (f value).Learns name owner look post := by
  induction x with
  | done value => rfl
  | ask r next ih => simp only [bind, Learns, ih]
  | _ => simp only [bind, Learns]

/-- A command that begins with inquiries does the rest of its work with what it has learned. -/
theorem resolves_bind {x : Action α} {f : α → Ending}
    (asks : x.Learns name owner look fun _ => True) :
    (x.bind f).Resolves name owner look ↔
      x.Learns name owner look fun value => (f value).Resolves name owner look := by
  induction x with
  | done value => rfl
  | ask r next ih =>
    obtain ⟨inquiry, rest⟩ := asks
    simp only [bind, Resolves, Learns, inquiry, if_true, true_and]
    constructor
    · intro h reply faithful
      exact (ih reply (rest reply faithful)).mp (h reply faithful)
    · intro h reply faithful
      exact (ih reply (rest reply faithful)).mpr (h reply faithful)
  | _ => exact asks.elim

end Action

namespace Step

variable {α β γ : Type} {owner : Option Instance} {name : String} {look : String → Option Value}

/-- The same of an action that may end in a fault, before it has done anything. -/
def Learns (name : String) (owner : Option Instance) (look : String → Option Value) (step : Step α)
    (post : α → Prop) : Prop :=
  Action.Learns name owner look step.run fun result =>
    match result with
    | .ok value => post value
    | .error _ => True

def Resolves (name : String) (owner : Option Instance) (look : String → Option Value)
    (step : Step Unit) : Prop :=
  Action.Resolves name owner look step.run

/-! ## Inquiries -/

section Learns

variable {post : α → Prop}

@[simp] theorem learns_pure (value : α) :
    (pure value : Step α).Learns name owner look post ↔ post value :=
  Iff.rfl

@[simp] theorem learns_throw (fault : Fault) :
    (throw fault : Step α).Learns name owner look post ↔ True :=
  Iff.rfl

@[simp] theorem learns_bind (x : Step α) (f : α → Step β) (post : β → Prop) :
    (x >>= f).Learns name owner look post ↔
      x.Learns name owner look fun value => (f value).Learns name owner look post := by
  unfold Learns
  rw [ExceptT.run_bind]
  refine (Action.learns_bind _ _ _).trans (iff_of_eq ?_)
  congr 1
  funext result
  cases result <;> rfl

@[simp] theorem learns_map (f : α → β) (x : Step α) (post : β → Prop) :
    (f <$> x).Learns name owner look post ↔
      x.Learns name owner look fun value => post (f value) := by
  rw [← bind_pure_comp, learns_bind]
  rfl

@[simp] theorem learns_ite (c : Prop) [Decidable c] (x y : Step α) :
    (if c then x else y).Learns name owner look post ↔
      (c → x.Learns name owner look post) ∧ (¬c → y.Learns name owner look post) := by
  split <;> simp [*]

@[simp] theorem learns_need (value? : Option α) :
    (need value?).Learns name owner look post ↔ ∀ value, value? = some value → post value := by
  cases value? <;> simp [need]

@[simp] theorem learns_ofExcept {ε : Type} (fault : ε → Fault) (x : Except ε α) :
    (ofExcept fault x).Learns name owner look post ↔ ∀ value, x = .ok value → post value := by
  cases x <;> simp [ofExcept]

theorem learns_mapM {f : γ → Step α} (each : ∀ item post, (∀ value, post value) →
      (f item).Learns name owner look post) (items : List γ) {post : List α → Prop}
    (h : ∀ values, post values) : (items.mapM f).Learns name owner look post := by
  induction items generalizing post with
  | nil => exact h []
  | cons item rest ih =>
    rw [List.mapM_cons, learns_bind]
    refine each item _ fun value => ?_
    rw [learns_bind]
    exact ih fun values => h (value :: values)

/-- Most replies may be anything. -/
theorem learns_ask (r : Request) (inquiry : r.isInquiry name owner = true)
    (free : ∀ reply, r.Faithful owner look reply) {post : r.Reply → Prop} :
    (ask r).Learns name owner look post ↔ ∀ reply, post reply :=
  ⟨fun h reply => h.2 reply (free reply), fun h => ⟨inquiry, fun reply _ => h reply⟩⟩

@[simp] theorem learns_expand (template : String) {post : String → Prop} :
    (expand template).Learns name owner look post ↔ ∀ text, post text :=
  learns_ask (.expand template) rfl fun _ => ⟨trivial, trivial⟩

@[simp] theorem learns_getVariable (target : String) {post : Option Value → Prop} :
    (getVariable target).Learns name owner look post ↔ post (look target) :=
  ⟨fun h => h.2 _ ⟨trivial, rfl⟩, fun h => ⟨rfl, fun _ same => by rw [same.2]; exact h⟩⟩

@[simp] theorem learns_schemas {post : List Schema → Prop} :
    schemas.Learns name owner look post ↔ ∀ all, post all :=
  learns_ask .schemas rfl fun _ => ⟨trivial, trivial⟩

@[simp] theorem learns_schema? (command : String) {post : Option Schema → Prop} :
    (schema? command).Learns name owner look post ↔ ∀ schema, post schema :=
  learns_ask (.schema command) rfl fun _ => ⟨trivial, trivial⟩

@[simp] theorem learns_typingSpeed {post : Option Binary64 → Prop} :
    typingSpeed.Learns name owner look post ↔ ∀ speed, post speed :=
  learns_ask .typingSpeed rfl fun _ => ⟨trivial, trivial⟩

@[simp] theorem learns_draw (draws : name ∈ drawing) (bound : Nat) {post : Nat → Prop} :
    (draw bound).Learns name owner look post ↔ ∀ n, post n :=
  learns_ask (.draw bound) (decide_eq_true draws) fun _ => ⟨trivial, trivial⟩

@[simp] theorem learns_position {post : Point → Prop} :
    position.Learns name owner look post ↔ ∀ result : Except DeviceError Point,
      (ofExcept .device result).Learns name owner look post :=
  (learns_bind _ _ _).trans (learns_ask .position rfl fun _ => ⟨trivial, trivial⟩)

@[simp] theorem learns_pixel (point : Point) {post : String → Prop} :
    (pixel point).Learns name owner look post ↔ ∀ result : Except DeviceError String,
      (ofExcept .device result).Learns name owner look post :=
  (learns_bind _ _ _).trans (learns_ask (.pixel point) rfl fun _ => ⟨trivial, trivial⟩)

@[simp] theorem learns_screenSize {post : ScreenSize → Prop} :
    screenSize.Learns name owner look post ↔ ∀ result : Except DeviceError ScreenSize,
      (ofExcept .device result).Learns name owner look post :=
  (learns_bind _ _ _).trans (learns_ask .screenSize rfl fun _ => ⟨trivial, trivial⟩)

@[simp] theorem learns_instanceName {post : Option String → Prop} :
    instanceName.Learns name owner look post ↔ post (owner.map (·.name)) :=
  ⟨fun h => h.2 _ ⟨rfl, trivial⟩, fun h => ⟨rfl, fun _ same => by rw [same.1]; exact h⟩⟩

theorem learns_currentIndex (i : Instance) {post : Nat → Prop} :
    currentIndex.Learns name (some i) look post ↔ post i.counter :=
  ⟨fun h => h.2 _ ⟨by rintro _ ⟨⟩; rfl, trivial⟩,
    fun h => ⟨rfl, fun _ same => by rw [same.1 i rfl]; exact h⟩⟩

theorem learns_source (i : Instance) {post : List String → Prop} :
    source.Learns name (some i) look post ↔ post i.source :=
  ⟨fun h => h.2 _ ⟨by rintro _ ⟨⟩; rfl, trivial⟩,
    fun h => ⟨rfl, fun _ same => by rw [same.1 i rfl]; exact h⟩⟩

end Learns

/-! ## The last thing -/

section Resolves

@[simp] theorem resolves_pure : (pure () : Step Unit).Resolves name owner look :=
  .remarks rfl

@[simp] theorem resolves_throw (fault : Fault) :
    (throw fault : Step Unit).Resolves name owner look :=
  .fault fault

@[simp] theorem resolves_ite (c : Prop) [Decidable c] (x y : Step Unit) :
    (if c then x else y).Resolves name owner look ↔
      (c → x.Resolves name owner look) ∧ (¬c → y.Resolves name owner look) := by
  split <;> simp [*]

@[simp] theorem resolves_bind {x : Step α} {f : α → Step Unit}
    (asks : x.Learns name owner look fun _ => True) :
    (x >>= f).Resolves name owner look ↔
      x.Learns name owner look fun value => (f value).Resolves name owner look := by
  have anything : (fun result : Except Fault α =>
      match result with
      | .ok _ => True
      | .error _ => True) = fun _ => True := by
    funext result
    cases result <;> rfl
  unfold Learns at asks
  rw [anything] at asks
  unfold Resolves
  rw [ExceptT.run_bind]
  refine (Action.resolves_bind asks).trans (iff_of_eq ?_)
  unfold Learns
  congr 1
  funext result
  cases result with
  | ok value => rfl
  | error fault => exact eq_true (.fault fault)

theorem resolves_of_final {r : Request} {next : r.Reply → Ending}
    (final : Action.Final name look (.ask r next)) (acts : r.isInquiry name owner = false) :
    Action.Resolves name owner look (.ask r next) := by
  rw [Action.Resolves, acts]
  exact final

/-- A change that answers for how its command ends. -/
theorem resolves_of_change {r : Request} {next : r.Reply → Ending} (change : r.isChange = true)
    (suits : r.Suits name) (renews : r.Renews look)
    (ends : ∀ reply, next reply = .done (r.verdict reply)) :
    Action.Resolves name owner look (.ask r next) :=
  resolves_of_final (.change change suits renews ends) (Request.isInquiry_of_isChange change)

/-! ### Saying something -/

def Remarks (step : Step Unit) : Prop :=
  Action.Remarks step.run

theorem Remarks.resolves {step : Step Unit} (h : step.Remarks) : step.Resolves name owner look := by
  revert h
  unfold Remarks Resolves
  cases step.run with
  | done result => exact .remarks
  | ask r next =>
    exact fun h => resolves_of_final (.remarks h) (Request.isInquiry_of_isRemark h.1)
  | _ => exact False.elim

@[simp] theorem remarks_respond (text : String) (style : Style) : (respond text style).Remarks :=
  ⟨rfl, fun _ => rfl⟩

/-- A line for each item. -/
theorem remarks_forM_respond (lines : List String) :
    (lines.forM fun line => respond line).Remarks := by
  induction lines with
  | nil => rfl
  | cons line rest ih => exact ⟨rfl, fun _ => ih⟩

@[simp] theorem resolves_respond (text : String) (style : Style) :
    (respond text style).Resolves name owner look :=
  (remarks_respond text style).resolves

@[simp] theorem resolves_write (text : String) (style : Style) :
    (write text style).Resolves name owner look :=
  resolves_of_final (.remarks ⟨rfl, fun _ => rfl⟩) rfl

@[simp] theorem resolves_clearScreen : clearScreen.Resolves name owner look :=
  resolves_of_final (.remarks ⟨rfl, fun _ => rfl⟩) rfl

/-! ### Changing something -/

theorem resolves_assign {target : String} {value : Value}
    (suits : Request.Suits name (.assign target value)) :
    (assign target value).Resolves name owner look :=
  resolves_of_change (r := .assign target value) rfl suits trivial fun reply => by
    cases reply <;> rfl

@[simp] theorem resolves_assign_text (target text : String) :
    (assign target (.text text)).Resolves name owner look :=
  resolves_assign trivial

/-- A variable that was seen is changed to what it was, with something added. -/
theorem resolves_update {target : String} {value : Value}
    (suits : Request.Suits name (.update target value))
    (renews : Request.Renews look (.update target value)) :
    (update target value).Resolves name owner look :=
  resolves_of_change (r := .update target value) rfl suits renews fun reply => by
    cases reply <;> rfl

@[simp] theorem resolves_assignGlobal (target text : String) :
    (assignGlobal target (.text text)).Resolves name owner look :=
  resolves_of_change (r := .assignGlobal target (.text text)) rfl rfl trivial fun reply => by
    cases reply <;> rfl

@[simp] theorem resolves_act (a : Device.Act) : (act a).Resolves name owner look :=
  resolves_of_change (r := .act a) rfl trivial trivial fun reply => by cases reply <;> rfl

@[simp] theorem resolves_setTypingSpeed (speed : Option Binary64) :
    (setTypingSpeed speed).Resolves name owner look :=
  resolves_of_change (r := .setTypingSpeed speed) rfl trivial trivial fun _ => rfl

@[simp] theorem resolves_remove (target : String) :
    (remove target).Resolves "deletevar" owner look :=
  resolves_of_change (r := .remove target) rfl rfl trivial fun _ => rfl

@[simp] theorem resolves_removeGlobal (target : String) :
    (removeGlobal target).Resolves "deleteglob" owner look :=
  resolves_of_change (r := .removeGlobal target) rfl rfl trivial fun _ => rfl

theorem resolves_assign_assign {first second text other : String} (pairs : name ∈ pairing) :
    (assign first (.text text) >>= fun _ => assign second (.text other)).Resolves name owner
      look := by
  refine resolves_of_final (.pair pairs ?_ fun _ => rfl) rfl
  exact .assign fun reply => by cases reply <;> rfl

/-! ### Going on elsewhere -/

@[simp] theorem resolves_discard_jump (index : Nat) :
    (discard (jump index)).Resolves name owner look :=
  resolves_of_final (.jump fun _ => rfl) rfl

@[simp] theorem resolves_sleep (pauses : name ∈ pausing) (duration : Duration) :
    (sleep duration).Resolves name owner look :=
  .sleep pauses

@[simp] theorem resolves_runScripts (pauses : name ∈ pausing) (names : List String) :
    (runScripts names).Resolves name owner look :=
  .start pauses fun result => by cases result <;> rfl

@[simp] theorem resolves_discard_evaluate (nests : name ∈ nesting) (line : String) (quiet : Bool) :
    (discard (evaluate line quiet)).Resolves name owner look :=
  .nest nests fun _ => .inl rfl

end Resolves

end Step

/-- The command resolves, whatever its arguments and whoever owns its line. -/
def Command.Resolves (c : Command) : Prop :=
  ∀ owner look args, (c.run args).Resolves c.schema.name owner look

namespace Builtin

open Step

variable {name : String} {owner : Option Instance} {look : String → Option Value}
  {args : List String}

/-! ## Arguments -/

@[simp] theorem learns_expanded (i : Nat) {post : String → Prop} :
    (expanded args i).Learns name owner look post ↔ ∀ text, post text :=
  learns_expand _

@[simp] theorem learns_expandedRest (first : Nat) {post : String → Prop} :
    (expandedRest args first).Learns name owner look post ↔ ∀ text, post text :=
  learns_expand _

@[simp] theorem learns_number? (i : Nat) {post : Option Binary64 → Prop} :
    (number? args i).Learns name owner look post ↔ ∀ text, post (Number.ofText? text) := by
  simp [number?]

@[simp] theorem learns_integer? (i : Nat) {post : Option Int → Prop} :
    (integer? args i).Learns name owner look post ↔ ∀ text, post (Number.integerOfText? text) := by
  simp [integer?]

theorem learns_point {post : Point → Prop} (h : ∀ p, post p) :
    (point args).Learns name owner look post := by
  simp only [point, Step.learns_bind, learns_number?]
  intro x y
  split <;> simp [h]

theorem learns_listItems (list : String) {post : List String → Prop}
    (h : ∀ items, look list = some (.list items) → post items) :
    (listItems list).Learns name owner look post := by
  simp only [listItems, Step.learns_bind, learns_getVariable]
  split
  · rename_i items found
    simpa using h items found
  · simp
  · simp

theorem learns_objectFields (object : String) {post : Bindings String → Prop}
    (h : ∀ fields, look object = some (.object fields) → post fields) :
    (objectFields object).Learns name owner look post := by
  simp only [objectFields, Step.learns_bind, learns_getVariable]
  split
  · rename_i fields found
    simpa using h fields found
  · simp
  · simp

theorem learns_operand (template : String) {post : Binary64 → Prop} (h : ∀ x, post x) :
    (operand template).Learns name owner look post := by
  simp [operand, h]

theorem learns_targetLine {i : Instance} {post : Nat → Prop} (h : ∀ target, post target) :
    (targetLine args).Learns name (some i) look post := by
  simp [targetLine, learns_source, h]

/-! ## Commands -/

theorem help_resolves : help.Resolves := by
  intro owner look args
  simp only [help]
  rw [resolves_ite]
  constructor
  · intro _
    rw [resolves_bind (by simp), learns_schemas]
    intro schemas
    exact Remarks.resolves ⟨rfl, fun _ => remarks_forM_respond _⟩
  · intro _
    rw [resolves_bind (by simp), learns_schema?]
    intro schema
    split <;> simp

theorem run_resolves : run.Resolves := by
  intro owner look args
  have asks : ∀ {name} {post : List String → Prop}, (∀ names, post names) →
      (args.mapM fun a => Step.expand (Text.trim a)).Learns name owner look post :=
    learns_mapM (fun _ _ h => (learns_expand _).mpr h) args
  have pauses : "run" ∈ pausing := by decide
  simp only [run]
  rw [resolves_bind (asks fun _ => trivial)]
  refine asks fun names => ?_
  split <;> simp [pauses, Schema.name]

theorem owner_commands_resolve : ∀ c ∈ [clear, stop], c.Resolves := by
  have cleared : clear.Resolves := fun owner look args => by cases owner <;> simp [clear]
  have stopped : stop.Resolves := fun owner look args => by cases owner <;> simp [stop]
  simp [cleared, stopped]

theorem output_commands_resolve : ∀ c ∈ [print, write], c.Resolves := by
  simp [Command.Resolves, print, write]

/-- What is read is all that the command still has to wait for. -/
theorem resolves_inputLine_bind {f : String → Step Unit} (pauses : name ∈ pausing)
    (remarks : ∀ line, (f line).Remarks) : (inputLine >>= f).Resolves name owner look := by
  refine Action.Final.read pauses fun line => ?_
  cases line with
  | none => exact .inl ⟨_, rfl⟩
  | some line => exact .inr (remarks _)

theorem input_commands_resolve : ∀ c ∈ [readLine, readKey], c.Resolves := by
  have line : readLine.Resolves := fun _ _ _ =>
    resolves_inputLine_bind (by decide) fun _ => remarks_respond _ _
  have key : readKey.Resolves := fun _ _ _ =>
    resolves_inputLine_bind (by decide) fun _ => remarks_respond _ _
  simp [line, key]

theorem delay_commands_resolve : ∀ c ∈ [wait, mouseDelay, keyboardDelay], c.Resolves := by
  have pauses : "wait" ∈ pausing := by decide
  simp [Command.Resolves, wait, mouseDelay, keyboardDelay, delay, pauses, Schema.name]

theorem variable_commands_resolve : ∀ c ∈ [var, deleteVar, glob, deleteGlob], c.Resolves := by
  simp [Command.Resolves, var, deleteVar, glob, deleteGlob, nameAndText, variableName, Schema.name]

theorem varType_resolves : varType.Resolves := by
  intro owner look args
  simp only [varType, givenName, resolves_bind, Step.learns_bind, learns_expanded, learns_ite,
    learns_throw, learns_pure, learns_getVariable, implies_true, and_true, true_and]
  intro name _
  split <;> simp

theorem creation_commands_resolve : ∀ c ∈ [listCreate, objCreate], c.Resolves := by
  have list : ∀ {owner look target},
      (Step.assign target (.list [])).Resolves "listcreate" owner look :=
    resolves_assign rfl
  have object : ∀ {owner look target},
      (Step.assign target (.object {})).Resolves "objcreate" owner look :=
    resolves_assign trivial
  simp [Command.Resolves, listCreate, objCreate, givenName, list, object, Schema.name]

theorem listLength_resolves : listLength.Resolves := by
  simp [Command.Resolves, listLength, givenName, learns_listItems]

/-- The list that is changed is the one that was seen. -/
theorem listAdd_resolves : listAdd.Resolves := by
  intro owner look args
  simp only [listAdd, ExceptT.bind_throw, learns_expanded, learns_expandedRest, resolves_bind,
    resolves_ite, resolves_throw, learns_listItems, implies_true, true_and]
  intro name value _
  refine learns_listItems name fun items seen => ?_
  exact resolves_update rfl ⟨_, seen, .list items value⟩

theorem objSet_resolves : objSet.Resolves := by
  intro owner look args
  simp only [objSet, nameAndKey, bind_pure_comp, ExceptT.map_throw, bind_assoc, learns_expanded,
    learns_expandedRest, resolves_bind, learns_ite, learns_throw, learns_pure, learns_objectFields,
    implies_true, and_self, true_and]
  intro name key _ value
  refine learns_objectFields name fun fields seen => ?_
  exact resolves_update trivial ⟨_, seen, .object fields key value⟩

theorem listGet_resolves : listGet.Resolves := by
  intro owner look args
  simp only [listGet, learns_expanded, resolves_bind, learns_integer?, learns_need, resolves_ite,
    ExceptT.bind_throw, resolves_throw, learns_listItems, implies_true, true_and]
  intro name text index _ _
  refine learns_listItems name fun items _ => ?_
  split <;> simp

theorem objGet_resolves : objGet.Resolves := by
  intro owner look args
  simp only [objGet, nameAndKey, bind_pure_comp, ExceptT.map_throw, bind_assoc, learns_expanded,
    resolves_bind, learns_ite, learns_throw, learns_pure, learns_objectFields, implies_true,
    and_self, true_and]
  intro name key _
  refine learns_objectFields name fun fields _ => ?_
  split <;> simp

theorem objKeys_resolves : objKeys.Resolves := by
  intro owner look args
  simp only [objKeys, givenName, bind_pure_comp, ExceptT.map_throw, bind_assoc, learns_expanded,
    resolves_bind, learns_ite, learns_throw, learns_pure, learns_objectFields, implies_true,
    and_self, true_and]
  intro name _
  exact learns_objectFields name fun fields _ => (remarks_forM_respond _).resolves

theorem number_commands_resolve : ∀ c ∈ [math, isNumeric], c.Resolves := by
  simp [Command.Resolves, math, isNumeric, respondNumber]

theorem operation_resolves : operation.Resolves := by
  intro owner look args
  have asks : ∀ {name} {post : List Binary64 → Prop}, (∀ operands, post operands) →
      ((everyOther args).mapM operand).Learns name owner look post :=
    learns_mapM (fun template _ h => learns_operand template h) _
  simp only [operation, ExceptT.bind_throw, resolves_ite, resolves_throw, asks, resolves_bind,
    learns_need, implies_true, true_and]
  intro _
  refine asks fun operands => ?_
  intro operators _
  split <;> simp [respondNumber]

theorem random_resolves : random.Resolves := by
  intro owner look args
  have draws : "random" ∈ drawing := by decide
  simp only [random, learns_integer?, resolves_bind, implies_true]
  intro a b
  split <;> simp [draws, Schema.name]

theorem randomF_resolves : randomF.Resolves := by
  intro owner look args
  have draws : "randomf" ∈ drawing := by decide
  simp only [randomF, learns_number?, resolves_bind, implies_true]
  intro a b
  split <;> simp [draws, Schema.name]

theorem substring_resolves : substringCommand.Resolves := by
  intro owner look args
  simp only [substringCommand, learns_number?, resolves_bind, implies_true]
  intro start stop
  split <;> simp

theorem replacement_commands_resolve : ∀ c ∈ [replace, replaceAll], c.Resolves := by
  simp [Command.Resolves, replace, replaceAll, replacement]

theorem button_commands_resolve : ∀ c ∈ [click, mouseDown, mouseUp], c.Resolves := by
  simp [Command.Resolves, click, mouseDown, mouseUp, button]

theorem movement_commands_resolve : ∀ c ∈ [move, drag, scroll], c.Resolves := by
  simp [Command.Resolves, move, drag, scroll, learns_point]

theorem pixel_resolves : pixel.Resolves := by
  simp [Command.Resolves, pixel, learns_point]

theorem pairing_commands_resolve : ∀ c ∈ [positionCommand, screenSize], c.Resolves := by
  have pointer : "position" ∈ pairing := by decide
  have screen : "screensize" ∈ pairing := by decide
  simp [Command.Resolves, positionCommand, screenSize, variablePair, resolves_assign_assign,
    pointer, screen, Schema.name]

theorem keyboard_commands_resolve : ∀ c ∈ [typeCpm, typeText, keyTap, keyDown, keyUp],
    c.Resolves := by
  simp [Command.Resolves, typeCpm, typeText, keyTap, keyDown, keyUp, key]

theorem goto_resolves : goto.Resolves := by
  intro owner look args
  cases owner with
  | none => simp [goto]
  | some i => simp [goto, learns_targetLine, learns_currentIndex]

theorem skip_resolves : skip.Resolves := by
  intro owner look args
  cases owner with
  | none => simp [skip]
  | some i => simp [skip, learns_source, learns_currentIndex]

theorem visit_resolves : visit.Resolves := by
  intro owner look args
  have nests : "visit" ∈ nesting := by decide
  cases owner with
  | none => simp [visit]
  | some i =>
    simp [visit, learns_targetLine, learns_currentIndex, learns_source, nests, Schema.name]

theorem if_resolves : ifCommand.Resolves := by
  intro owner look args
  have nests : "if" ∈ nesting := by decide
  simp only [ifCommand, ExceptT.bind_throw, learns_expanded, resolves_bind, implies_true]
  intro a b
  split <;> simp [nests, Schema.name]

/-- The variable is set only if the line has responded something, and has not failed. -/
theorem assign_resolves : assign.Resolves := by
  intro owner look args
  simp only [assign, ExceptT.bind_throw, learns_expanded, resolves_bind, resolves_ite,
    resolves_throw, implies_true, true_and]
  intro name _
  refine Action.Final.nest (by decide) fun e => ?_
  show Action.Follows e (ExceptT.run (if _ then _ else _))
  split
  · rename_i responded
    refine .inr ⟨by simpa using responded.1, responded.2, ?_⟩
    exact .assign fun reply => by cases reply <;> rfl
  · exact .inl rfl

end Builtin

open Builtin in
theorem builtins_resolve : ∀ c ∈ builtins, c.Resolves := by
  simp only [builtins, List.forall_mem_cons]
  simp [help_resolves, run_resolves, goto_resolves, skip_resolves, visit_resolves, if_resolves,
    assign_resolves, operation_resolves, random_resolves, randomF_resolves, substring_resolves,
    varType_resolves, listGet_resolves, objGet_resolves, objKeys_resolves, pixel_resolves,
    owner_commands_resolve, output_commands_resolve, input_commands_resolve,
    delay_commands_resolve, variable_commands_resolve, creation_commands_resolve,
    listLength_resolves, listAdd_resolves, objSet_resolves, number_commands_resolve,
    replacement_commands_resolve,
    button_commands_resolve, movement_commands_resolve, pairing_commands_resolve,
    keyboard_commands_resolve]

/-- So does whatever the standard registry finds. -/
theorem Registry.resolves_of_find? {name : String} {c : Command}
    (found : standard.find? name = some c) : c.Resolves := by
  obtain ⟨b, builtin, rfl⟩ := mem_ofCommands (mem_commands_of_find? found)
  intro owner look args
  rw [Schema.name, folded_names b builtin]
  exact builtins_resolve b builtin owner look args

end LineScript
