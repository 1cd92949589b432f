import LineScript.Command.Builtin.Arguments

/-!
# Commands of control flow

Running scripts, moving through the lines of one, and evaluating a line on behalf of another.
-/

namespace LineScript.Builtin

def run : Command where
  schema :=
    { names := ["run"]
      description := "Runs script file(s)."
      params := [⟨"script", "The name of the script"⟩]
      usageTop := some "[script] [script]..." }
  run args := do
    let names ← args.mapM fun a => Step.expand (Text.trim a)
    match names.filter (· != "") with
    | [] => return
    | names => Step.runScripts names

/-- The line of the script that an argument names, from one; the result counts from zero. -/
def targetLine (args : List String) : Step Nat := do
  let line ← Step.need (← integer? args 0)
  let source ← Step.source
  if 1 ≤ line ∧ line ≤ source.length then return (line - 1).toNat else throw .usage

def goto : Command where
  schema :=
    { names := ["goto"]
      description := "Goes to a line in the script."
      params := [⟨"line", "The target line"⟩] }
  run args := do
    match ← Step.instanceName with
    | none => throw .usage
    | some _ =>
      let target ← targetLine args
      if target = (← Step.currentIndex) then throw .gotoSameLine
      discard (Step.jump target)

/-- A line index as the signed number of the same 64 bits, which is what an amount is added to.
The upper half of the indices stands below zero. -/
def signedIndex (index : Nat) : Int :=
  Int.bmod index UInt64.size

theorem signedIndex_of_lt {index : Nat} (h : index < 9223372036854775808) :
    signedIndex index = index :=
  Int.bmod_eq_of_le (by simp only [UInt64.size]; omega) (by simp only [UInt64.size]; omega)

def skip : Command where
  schema :=
    { names := ["skip"]
      description := "Skips the given amount of lines in the script."
      params := [⟨"amount", "The amount of lines to skip"⟩] }
  run args := do
    match ← Step.instanceName with
    | none => throw .usage
    | some _ =>
      let amount ← Step.need (← integer? args 0)
      let target := signedIndex (← Step.currentIndex) + amount
      let source ← Step.source
      if target < 0 ∨ source.length ≤ target then throw .usage
      if amount = 0 then throw .gotoSameLine
      discard (Step.jump target.toNat)

def visit : Command where
  schema :=
    { names := ["visit"]
      description := "Runs a line in the script immediately."
      params := [⟨"line", "The target line"⟩] }
  run args := do
    match ← Step.instanceName with
    | none => throw .visitOutsideScript
    | some _ =>
      let target ← targetLine args
      if target = (← Step.currentIndex) then throw .visitSameLine
      let source ← Step.source
      discard (Step.evaluate (source.getD target "") false)

inductive Comparator where
  | equal | notEqual | greater | less | atLeast | atMost
  deriving DecidableEq

def Comparator.ofToken? : String → Option Comparator
  | "==" => some .equal
  | "!=" => some .notEqual
  | ">" => some .greater
  | "<" => some .less
  | ">=" => some .atLeast
  | "<=" => some .atMost
  | _ => none

/-- The meaning of a comparator on numbers. -/
def Comparator.onNumbers : Comparator → Binary64 → Binary64 → Bool
  | .equal, x, y => x.eq y
  | .notEqual, x, y => !x.eq y
  | .greater, x, y => y.lt x
  | .less, x, y => x.lt y
  | .atLeast, x, y => y.le x
  | .atMost, x, y => x.le y

/-- Whether a comparison holds: equality of texts, or an order of numbers. -/
def Comparator.holds (c : Comparator) (a b : String) : Except Fault Bool :=
  match c with
  | .equal => .ok (a = b)
  | .notEqual => .ok (a ≠ b)
  | c =>
    match Number.ofText? a, Number.ofText? b with
    | none, _ => .error .firstNotNumeric
    | _, none => .error .secondNotNumeric
    | some x, some y => .ok (c.onNumbers x y)

def ifCommand : Command where
  schema :=
    { names := ["if"]
      description := "Checks if statement is true, and if it is, runs the code immediately."
      params :=
        [⟨"a", "First value."⟩,
         ⟨"comparator", choices "The comparator. Can be:"
            ["== Checks if two values are equal",
             "!= Checks if two values are not equal",
             ">  Checks if the first value is bigger than the second value",
             "<  Checks if the first value is smaller than the second value",
             ">= Checks if the first value is bigger than or equal to the second value",
             "<= Checks if the first value is smaller than or equal to the second value"]⟩,
         ⟨"b", "Second value."⟩,
         ⟨"code", "This code will be ran if the statement was correct"⟩]
      returns := some "1 or 0 when no code is given" }
  run args := do
    let a ← expanded args 0
    let b ← expanded args 2
    let code := Text.trim (rest args 3)
    match Comparator.ofToken? (arg args 1) with
    | none => throw .usage
    | some comparator =>
      if a = "" ∨ b = "" then throw .usage
      let holds ← Step.ofExcept id (comparator.holds a b)
      if code = "" then Step.respond (if holds then "1" else "0")
      else if holds then discard (Step.evaluate code false)

def assign : Command where
  schema :=
    { names := ["assign", "asg"]
      description := "Assigns the variable a result of a code."
      params := [⟨"variable", "The variable's name."⟩, ⟨"code", "The code."⟩] }
  run args := do
    let name ← expanded args 0
    let code := rest args 1
    if name = "" ∨ Text.trim code = "" then throw .usage
    let evaluation ← Step.evaluate code true
    if !evaluation.failed ∧ evaluation.captured ≠ "" then
      Step.assign name (.text evaluation.captured)

def wait : Command where
  schema :=
    { names := ["wait"]
      description := "Stops the process for the given time."
      params := [⟨"delay", "The delay in seconds"⟩] }
  run args := do
    Step.sleep (← delay args)

def stop : Command where
  schema := { names := ["stop", "exit"], description := "Stops the script." }
  run _ := do
    match ← Step.instanceName with
    | none => throw .stopOutsideScript
    | some _ => throw .stopCommanded

end LineScript.Builtin
