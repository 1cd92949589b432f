import LineScript.Command.Builtin.Arguments

/-!
# Commands of the console

Help, output and input.
-/

namespace LineScript.Builtin

/-- The text with spaces after it up to a number of characters. -/
def padded (width : Nat) (s : String) : String :=
  s ++ String.ofList (List.replicate (width - s.toList.length) ' ')

/-- A line for each command, the descriptions in one column. -/
def helpLines (schemas : List Schema) : List String :=
  let width := (schemas.map (·.name.utf8ByteSize)).foldl max 0 + 3
  schemas.map fun s => padded width s.name ++ s.description

def help : Command where
  schema :=
    { names := ["help", "?"]
      description := "Provides help information for Neet commands."
      params := [⟨"command", "The name of the command"⟩] }
  run args := do
    let target := arg args 0
    if target = "" then
      let lines := helpLines (← Step.schemas)
      Step.respond "For more information on a specific command, type 'help command-name'\n"
      lines.forM fun line => Step.respond line
    else
      match ← Step.schema? target with
      | some schema => Step.respond schema.help
      | none => throw .noHelp

def clear : Command where
  schema := { names := ["clear", "cls"], description := "Clears the terminal." }
  run _ := do
    match ← Step.instanceName with
    | some _ => throw .clearInScript
    | none => Step.clearScreen

def print : Command where
  schema :=
    { names := ["print"]
      description := "Prints out a text."
      params := [⟨"message", "the message to print"⟩]
      returns := some "string" }
  run args := do
    Step.respond (← expandedRest args 0)

def write : Command where
  schema :=
    { names := ["write"]
      description := "Prints out a text without a new line."
      params := [⟨"message", "the message to write"⟩]
      returns := some "string" }
  run args := do
    Step.write (← expandedRest args 0)

/-- A line of input without its ending. -/
def inputLine : Step String := do
  match ← Step.readInput with
  | some line => return Text.dropLineEnding line
  | none => throw .noInput

def readLine : Command where
  schema :=
    { names := ["readline"]
      description := "Reads line from the terminal."
      returns := some "string" }
  run _ := do
    Step.respond (← inputLine)

/-- The first character of a line of input. -/
def readKey : Command where
  schema :=
    { names := ["readkey"]
      description := "Reads a key from the terminal."
      returns := some "string" }
  run _ := do
    let line ← inputLine
    Step.respond (String.ofList (line.toList.take 1))

end LineScript.Builtin
