import LineScript.Command.Builtin.Arguments

/-!
# Commands on variables

Text variables of the owner and global ones.
-/

namespace LineScript.Builtin

/-- A name and a text that are both there. -/
def nameAndText (args : List String) : Step (String × String) := do
  let name ← expanded args 0
  let text ← expandedRest args 1
  if name = "" ∨ text = "" then throw .usage
  return (name, text)

def var : Command where
  schema :=
    { names := ["var", "let"]
      description := "Sets a variable's value."
      params := [⟨"name", "Variable name"⟩, ⟨"value", "Value of the variable"⟩] }
  run args := do
    let (name, text) ← nameAndText args
    Step.assign name (.text text)

def deleteVar : Command where
  schema :=
    { names := ["deletevar", "delvar", "rmvar", "removevar"]
      description := "Deletes a variable."
      params := [⟨"name", "Variable name"⟩] }
  run args := do
    Step.remove (← variableName args)

def glob : Command where
  schema :=
    { names := ["glob", "global"]
      description := "Sets a global variable's value."
      params := [⟨"name", "Variable name"⟩, ⟨"value", "Value of the variable"⟩] }
  run args := do
    let (name, text) ← nameAndText args
    Step.assignGlobal name (.text text)

def deleteGlob : Command where
  schema :=
    { names :=
        ["deleteglob", "delglob", "rmglob", "removeglob", "deleteglobal", "delglobal", "rmglobal",
         "removeglobal"]
      description := "Deletes a global variable."
      params := [⟨"name", "Variable name"⟩] }
  run args := do
    Step.removeGlobal (← variableName args)

def varType : Command where
  schema :=
    { names := ["vartype", "variabletype"]
      description := "Returns the type of the variable."
      params := [⟨"name", "The name of the variable to check."⟩]
      returns := some "'string' or 'list' or 'object' or if it doesn't exist 'undefined'" }
  run args := do
    let name ← givenName args
    match ← Step.getVariable name with
    | some value => Step.respond value.kind.name
    | none => Step.respond "undefined"

end LineScript.Builtin
