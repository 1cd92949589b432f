import LineScript.Command.Builtin.Arguments
import LineScript.Text.Replace

/-!
# Commands on texts

Positions in a text count characters.
-/

namespace LineScript.Builtin

def isNumeric : Command where
  schema :=
    { names := ["isnumeric", "isnum"]
      description := "Checks if something is numeric."
      params := [⟨"text", "A text"⟩]
      returns := some "If is a number 1, unless 0" }
  run args := do
    let number ← number? args 0
    Step.respond (if number.isSome then "1" else "0")

/-- A number as a position in a text of the given length: its fraction is dropped, and what lies
outside the text counts as the nearer end. -/
def position (length : Nat) (x : Binary64) : Nat :=
  min x.toInt.toNat length

/-- The characters between two positions, whichever comes first. -/
def substring (text : String) (start stop : Binary64) : String :=
  let cs := text.toList
  let a := position cs.length start
  let b := position cs.length stop
  String.ofList ((cs.drop (min a b)).take (max a b - min a b))

def substringCommand : Command where
  schema :=
    { names := ["substring", "substr"]
      description :=
        "Extracts a portion of a string, based on the specified starting and ending indices."
      params :=
        [⟨"start", "The starting index."⟩, ⟨"end", "The ending index."⟩, ⟨"text", "The text."⟩]
      returns := some "string" }
  run args := do
    let start ← number? args 0
    let stop ← number? args 1
    match start, stop with
    | some start, some stop => Step.respond (substring (← expandedRest args 2) start stop)
    | _, _ => throw .usage

/-- The arguments of a replacement: both texts are there. -/
def replacement (args : List String) : Step (String × String) := do
  let pattern ← expanded args 0
  let new ← expanded args 1
  if pattern = "" ∨ new = "" then throw .usage
  return (pattern, new)

def replace : Command where
  schema :=
    { names := ["replace", "rpl"]
      description := "Replaces a single occurrence of a specified text with a new text."
      params :=
        [⟨"from", "The text that will be replaced."⟩,
         ⟨"to", "The text that will be replaced with the 'from'."⟩, ⟨"text", "The text."⟩]
      returns := some "string" }
  run args := do
    let (pattern, new) ← replacement args
    Step.respond (Text.replaceFirst pattern new (← expandedRest args 2))

def replaceAll : Command where
  schema :=
    { names := ["replaceall", "rplall"]
      description := "Replaces all occurrences of a specified text with a new text."
      params :=
        [⟨"from", "The text that will be replaced."⟩,
         ⟨"to", "The text that will be replaced with the 'from'."⟩, ⟨"text", "The text."⟩]
      returns := some "string" }
  run args := do
    let (pattern, new) ← replacement args
    Step.respond (Text.replaceAll pattern new (← expandedRest args 2))

end LineScript.Builtin
