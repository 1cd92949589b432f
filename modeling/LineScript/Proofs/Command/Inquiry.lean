import LineScript.Proofs.Command.Conduct

/-!
# What a command asks before it evaluates a line

Three builtin commands evaluate a line on behalf of their own: `visit`, `if` and `assign`. Up to
that point they ask questions and change nothing, neither their line nor the workspace. So the line
that they evaluate is evaluated in the very state in which they were begun.
-/

namespace LineScript

/-- A request that is a question about the owner and the variables. -/
def Request.isQuestion : Request → Bool
  | .currentIndex => true
  | .source => true
  | .instanceName => true
  | .expand _ => true
  | _ => false

namespace Action

variable {α β : Type}

/-- The action asks questions and no more. -/
def Asks : Action α → Prop
  | .done _ => True
  | .ask r next => r.isQuestion = true ∧ ∀ reply, (next reply).Asks
  | _ => False

/-- The action asks questions until it evaluates a line or ends. Its last request may be another
one. -/
def Inquires : Action α → Prop
  | .done _ => True
  | .ask r next =>
    (r.isQuestion = true ∧ ∀ reply, (next reply).Inquires) ∨
      ∀ reply, ∃ value, next reply = .done value
  | .evaluate .. => True
  | _ => False

theorem Asks.bind {x : Action α} {f : α → Action β} (first : x.Asks)
    (rest : ∀ value, (f value).Asks) : (x.bind f).Asks := by
  induction x with
  | done value => exact rest value
  | ask r next ih => exact ⟨first.1, fun reply => ih reply (first.2 reply)⟩
  | _ => exact first.elim

theorem Inquires.bind {x : Action α} {f : α → Action β} (first : x.Asks)
    (rest : ∀ value, (f value).Inquires) : (x.bind f).Inquires := by
  induction x with
  | done value => exact rest value
  | ask r next ih => exact .inl ⟨first.1, fun reply => ih reply (first.2 reply)⟩
  | _ => exact first.elim

end Action

namespace Step

variable {α β : Type}

def Asks (step : Step α) : Prop :=
  Action.Asks step.run

def Inquires (step : Step α) : Prop :=
  Action.Inquires step.run

theorem Asks.bind {x : Step α} {f : α → Step β} (first : x.Asks)
    (rest : ∀ value, (f value).Asks) : (x >>= f).Asks := by
  refine Action.Asks.bind first fun result => ?_
  cases result with
  | ok value => exact rest value
  | error fault => trivial

theorem Inquires.bind {x : Step α} {f : α → Step β} (first : x.Asks)
    (rest : ∀ value, (f value).Inquires) : (x >>= f).Inquires := by
  refine Action.Inquires.bind first fun result => ?_
  cases result with
  | ok value => exact rest value
  | error fault => trivial

theorem asks_expand (template : String) : (expand template).Asks :=
  ⟨rfl, fun _ => trivial⟩

theorem asks_source : source.Asks :=
  ⟨rfl, fun _ => trivial⟩

theorem asks_currentIndex : currentIndex.Asks :=
  ⟨rfl, fun _ => trivial⟩

theorem asks_instanceName : instanceName.Asks :=
  ⟨rfl, fun _ => trivial⟩

theorem asks_need (value? : Option α) : (need value?).Asks := by
  cases value? <;> trivial

theorem asks_ofExcept {ε : Type} (fault : ε → Fault) (x : Except ε α) :
    (ofExcept fault x).Asks := by
  cases x <;> trivial

theorem inquires_pure (value : α) : (pure value : Step α).Inquires :=
  trivial

theorem inquires_throw (fault : Fault) : (throw fault : Step α).Inquires :=
  trivial

theorem inquires_respond (text : String) (style : Style) : (respond text style).Inquires :=
  .inr fun _ => ⟨_, rfl⟩

theorem inquires_discard_evaluate (line : String) (quiet : Bool) :
    (discard (evaluate line quiet)).Inquires :=
  trivial

theorem Inquires.ite {c : Prop} [Decidable c] {x y : Step α} (left : x.Inquires)
    (right : y.Inquires) : (if c then x else y).Inquires := by
  split
  · exact left
  · exact right

end Step

namespace Builtin

open Step

theorem targetLine_asks (args : List String) : (targetLine args).Asks := by
  have number : (integer? args 0).Asks := (asks_expand _).bind fun _ => trivial
  unfold targetLine
  refine number.bind fun line? => (asks_need line?).bind fun line => ?_
  refine asks_source.bind fun source => ?_
  split <;> trivial

theorem visit_inquires (args : List String) : (visit.run args).Inquires := by
  unfold visit
  refine .bind asks_instanceName fun name => ?_
  cases name with
  | none => exact inquires_throw _
  | some _ =>
    refine .bind (targetLine_asks args) fun target => .bind asks_currentIndex fun index => ?_
    refine (inquires_throw _).ite (.bind asks_source fun source => ?_)
    exact inquires_discard_evaluate _ _

theorem if_inquires (args : List String) : (ifCommand.run args).Inquires := by
  unfold ifCommand
  refine .bind (asks_expand _) fun a => .bind (asks_expand _) fun b => ?_
  dsimp only
  split
  · exact inquires_throw _
  · refine (inquires_throw _).ite (.bind (asks_ofExcept _ _) fun holds => ?_)
    generalize Text.trim (rest args 3) = code
    exact (inquires_respond _ _).ite ((inquires_discard_evaluate code false).ite (inquires_pure _))

theorem assign_inquires (args : List String) : (assign.run args).Inquires := by
  unfold assign
  refine .bind (asks_expand _) fun name => ?_
  exact (inquires_throw _).ite trivial

end Builtin

/-- The names of the commands that evaluate a line. -/
def nesting : List String :=
  ["visit", "if", "assign"]

theorem Conduct.Wrote.mem_nesting {name raw line : String} {owner : Option Instance}
    (h : Conduct.Wrote name raw owner line) : name ∈ nesting := by
  rcases h with ⟨rfl, -⟩ | ⟨rfl | rfl, -⟩ <;> simp [nesting]

open Builtin in
theorem nesting_cases : ∀ c ∈ builtins, c.schema.name ∈ nesting →
    c = visit ∨ c = ifCommand ∨ c = assign := by
  intro c builtin nests
  have among : c ∈ builtins.filter (·.schema.name ∈ nesting) :=
    List.mem_filter.mpr ⟨builtin, decide_eq_true nests⟩
  have three : builtins.filter (·.schema.name ∈ nesting) = [visit, ifCommand, assign] := rfl
  rw [three] at among
  simpa only [List.mem_cons, List.not_mem_nil, or_false] using among

open Builtin in
theorem builtins_inquire : ∀ c ∈ builtins, c.schema.name ∈ nesting →
    ∀ args, (c.run args).Inquires := by
  intro c builtin nests
  rcases nesting_cases c builtin nests with rfl | rfl | rfl
  · exact visit_inquires
  · exact if_inquires
  · exact assign_inquires

/-- Whatever the standard registry finds evaluates no line, or asks questions until it does. -/
theorem Registry.inquires_of_find? {name : String} {c : Command}
    (found : standard.find? name = some c) (nests : c.schema.name ∈ nesting)
    (args : List String) : (c.run args).Inquires := by
  obtain ⟨b, builtin, rfl⟩ := mem_ofCommands (mem_commands_of_find? found)
  rw [Schema.name, folded_names b builtin] at nests
  exact builtins_inquire b builtin nests args

end LineScript
