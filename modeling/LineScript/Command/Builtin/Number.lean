import LineScript.Command.Builtin.Arguments
import LineScript.Number.Chain
import LineScript.Number.Function

/-!
# Commands on numbers
-/

namespace LineScript.Builtin

/-- Respond with a number, which has to be finite. -/
def respondNumber (x : Binary64) : Step Unit := do
  if !x.isFinite then throw .notFinite
  Step.respond (Number.text x)

/-- The first, the third, the fifth and so on. -/
def everyOther : List String → List String
  | [] => []
  | [x] => [x]
  | x :: _ :: rest => x :: everyOther rest

/-- A finite number written as a template. -/
def operand (template : String) : Step Binary64 := do
  Step.need (Number.ofText? (← Step.expand template))

/-- Operands and operators take turns. Operators are taken as they are written. -/
def operation : Command where
  schema :=
    { names := ["operation", "opr"]
      description := "Does mathematical operations on numbers."
      params :=
        [⟨"number", "A number."⟩,
         ⟨"operator", choices "The operator. Can be:"
            ["+ Adds", "- Subtracts", "* Multiplies", "/ Divides", "** Power",
             ">> Shifts right in binary", "<< Shifts left in binary",
             "% Gets the remainder of the division", "^ Does XOR action in binary"]⟩]
      usageTop := some "[number] [operator] [number] [operator] [number]..."
      returns := some "number" }
  run args := do
    if args.length % 2 = 0 then throw .usage
    let operands ← (everyOther args).mapM operand
    let operators ← Step.need ((everyOther args.tail).mapM Operator.ofToken?)
    match Chain.evaluate operands operators with
    | .ok value => respondNumber value
    | .error _ => throw .usage

def math : Command where
  schema :=
    { names := ["math"]
      description := "Runs mathematical methods on numbers."
      params :=
        [⟨"action", "The operator. Can be: " ++ String.intercalate ", " MathFunction.names⟩,
         ⟨"number", "The number."⟩]
      returns := some "number" }
  run args := do
    let x ← Step.need (← number? args 1)
    let f ← Step.need (MathFunction.ofName? (arg args 0))
    respondNumber (f.apply x)

def random : Command where
  schema :=
    { names := ["random", "rand"]
      description := "Generates a random integer between two values(both included)."
      params := [⟨"number1", "The first number."⟩, ⟨"number2", "The second number."⟩]
      returns := some "integer" }
  run args := do
    let a ← integer? args 0
    let b ← integer? args 1
    match a, b with
    | some a, some b =>
      let offset ← Step.draw ((max a b - min a b).toNat + 1)
      Step.respond (toString (min a b + (offset : Int)))
    | _, _ => throw .usage

/-- The number at a fraction of the way from `low` to `high`, which are in this order and differ.
It never reaches `high`. -/
def between (low high fraction : Binary64) : Binary64 :=
  let span := high.sub low
  let x :=
    if span.isFinite then low.add (span.mul fraction)
    else (low.mul ((Binary64.ofNat 1).sub fraction)).add (high.mul fraction)
  if x.lt high then x else low

/-- The number of fractions that a random number between two others is made of. -/
def fractions : Nat :=
  Nat.pow 2 53

def randomF : Command where
  schema :=
    { names := ["randomf", "randf"]
      description := "Generates a random floating number between two values."
      params :=
        [⟨"float1", "The first floating number."⟩, ⟨"float2", "The second floating number."⟩]
      returns := some "float" }
  run args := do
    let a ← number? args 0
    let b ← number? args 1
    match a, b with
    | some a, some b =>
      let low := a.min b
      let high := a.max b
      if low.eq high then Step.respond (Number.text low)
      else
        let n ← Step.draw fractions
        Step.respond (Number.text (between low high (Binary64.ofRatio false n fractions)))
    | _, _ => throw .usage

end LineScript.Builtin
