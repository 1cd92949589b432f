import LineScript.Proofs.Command.Resolve

/-!
# Commands that draw

Two builtin commands draw random numbers. What they do is the same whatever they draw: they have
their arguments expanded, and then they end with a fault, or respond a text that is made of one
number that they have drawn, if they have drawn any. `Action.Rolls` says so of an action.
-/

namespace LineScript

/-- The action has texts expanded, and then it responds, after at most one draw, or ends with a
fault. -/
inductive Action.Rolls : Ending → Prop where
  | fault (fault : Fault) : Rolls (.done (.error fault))
  | respond (text : String) : Rolls (Step.respond text).run
  | draw (bound : Nat) (text : Nat → String) :
      Rolls (Step.draw bound >>= fun n => Step.respond (text n)).run
  | expand {template : String} {next : String → Ending} (rest : ∀ text, (next text).Rolls) :
      Rolls (.ask (.expand template) next)

namespace Builtin

theorem rolls_number? (args : List String) (i : Nat) {f : Option Binary64 → Step Unit}
    (rest : ∀ x, (f x).run.Rolls) : (number? args i >>= f).run.Rolls :=
  .expand fun text => rest (Number.ofText? text)

theorem rolls_integer? (args : List String) (i : Nat) {f : Option Int → Step Unit}
    (rest : ∀ n, (f n).run.Rolls) : (integer? args i >>= f).run.Rolls :=
  .expand fun text => rest (Number.integerOfText? text)

theorem random_rolls (args : List String) : (random.run args).run.Rolls := by
  refine rolls_integer? args 0 fun a => rolls_integer? args 1 fun b => ?_
  cases a with
  | none => exact .fault .usage
  | some a =>
    cases b with
    | none => exact .fault .usage
    | some b => exact .draw _ fun offset => toString (min a b + (offset : Int))

theorem randomF_rolls (args : List String) : (randomF.run args).run.Rolls := by
  refine rolls_number? args 0 fun a => rolls_number? args 1 fun b => ?_
  cases a with
  | none => exact .fault .usage
  | some a =>
    cases b with
    | none => exact .fault .usage
    | some b =>
      dsimp only
      split
      · exact .respond _
      · exact .draw fractions fun n =>
          Number.text (between (a.min b) (a.max b) (Binary64.ofRatio false n fractions))

end Builtin

open Builtin in
theorem drawing_cases : ∀ c ∈ builtins, c.schema.name ∈ drawing → c = random ∨ c = randomF := by
  intro c builtin draws
  have among : c ∈ builtins.filter (·.schema.name ∈ drawing) :=
    List.mem_filter.mpr ⟨builtin, decide_eq_true draws⟩
  have two : builtins.filter (·.schema.name ∈ drawing) = [random, randomF] := rfl
  rw [two] at among
  simpa only [List.mem_cons, List.not_mem_nil, or_false] using among

theorem builtins_roll : ∀ c ∈ builtins, c.schema.name ∈ drawing →
    ∀ args, (c.run args).run.Rolls := by
  intro c builtin draws
  rcases drawing_cases c builtin draws with rfl | rfl
  · exact Builtin.random_rolls
  · exact Builtin.randomF_rolls

end LineScript
