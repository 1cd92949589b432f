import LineScript.Command.Action
import LineScript.Number.Literal
import LineScript.Text.Blank
import LineScript.Text.Fields

/-!
# Arguments

How the builtin commands take their arguments. A missing argument counts as empty.
-/

namespace LineScript.Builtin

/-- A description with a line for each choice. -/
def choices (title : String) (lines : List String) : String :=
  title ++ String.join (lines.map ("\n    " ++ ·))

/-- An argument by its place, from zero. -/
def arg (args : List String) (i : Nat) : String :=
  args.getD i ""

/-- The arguments from a place on, as they stood on the line. -/
def rest (args : List String) (first : Nat) : String :=
  Text.unfields (args.drop first)

/-- The argument with its references replaced. -/
def expanded (args : List String) (i : Nat) : Step String :=
  Step.expand (arg args i)

/-- The arguments from a place on with their references replaced. -/
def expandedRest (args : List String) (first : Nat) : Step String :=
  Step.expand (rest args first)

/-- The argument as a finite number. -/
def number? (args : List String) (i : Nat) : Step (Option Binary64) :=
  return Number.ofText? (← expanded args i)

/-- The argument as an exact whole number. -/
def integer? (args : List String) (i : Nat) : Step (Option Int) :=
  return Number.integerOfText? (← expanded args i)

def point (args : List String) : Step Point := do
  let x ← number? args 0
  let y ← number? args 1
  match x, y with
  | some x, some y => return ⟨x, y⟩
  | _, _ => throw .usage

/-- A number of seconds that is not negative, as a duration. -/
def delay (args : List String) : Step Duration := do
  let seconds ← number? args 0
  Step.need (seconds.bind Duration.ofSeconds?)

/-- A name that is not empty, and faultless as the name of a variable. -/
def variableName (args : List String) : Step String := do
  let name ← expanded args 0
  if name = "" then throw .usage
  Step.ofExcept .assign (checkName name)
  return name

/-- A name that is not empty. -/
def givenName (args : List String) : Step String := do
  let name ← expanded args 0
  if name = "" then throw .usage
  return name

/-- The names of two variables, as they are written. -/
def variablePair (args : List String) : Step (String × String) := do
  if arg args 0 = "" ∨ arg args 1 = "" then throw .usage
  return (arg args 0, arg args 1)

end LineScript.Builtin
