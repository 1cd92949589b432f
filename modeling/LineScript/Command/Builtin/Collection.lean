import LineScript.Command.Builtin.Arguments

/-!
# Commands on lists and objects

A list or an object is read where a line sees it and written back to where it was found.
-/

namespace LineScript.Builtin

/-- The items of a list that a line sees. -/
def listItems (name : String) : Step (List String) := do
  match ← Step.getVariable name with
  | some (.list items) => return items
  | some _ => throw (.wrongKind name .list)
  | none => throw (.unknownVariable name)

/-- The fields of an object that a line sees. -/
def objectFields (name : String) : Step (Bindings String) := do
  match ← Step.getVariable name with
  | some (.object fields) => return fields
  | some _ => throw (.wrongKind name .object)
  | none => throw (.unknownVariable name)

def listCreate : Command where
  schema :=
    { names := ["listcreate"]
      description := "Creates a list variable."
      params := [⟨"name", "The name of the list variable."⟩] }
  run args := do
    Step.assign (← givenName args) (.list [])

def listAdd : Command where
  schema :=
    { names := ["listadd"]
      description := "Adds a value to the end of a list."
      params := [⟨"name", "The name of the list variable."⟩, ⟨"value", "The value to add."⟩] }
  run args := do
    let name ← expanded args 0
    let value ← expandedRest args 1
    if name = "" ∨ args.length < 2 then throw .usage
    let items ← listItems name
    Step.update name (.list (items ++ [value]))

/-- The item at an index, from zero. -/
def item? (items : List String) (index : Int) : Option String :=
  if index < 0 then none else items[index.toNat]?

def listGet : Command where
  schema :=
    { names := ["listget"]
      description := "Gets the value at an index of a list."
      params :=
        [⟨"name", "The name of the list variable."⟩, ⟨"index", "The index, starting from 0."⟩]
      returns := some "string" }
  run args := do
    let name ← expanded args 0
    let index ← Step.need (← integer? args 1)
    if name = "" then throw .usage
    let items ← listItems name
    match item? items index with
    | some item => Step.respond item
    | none => throw (.indexOutOfRange index)

def listLength : Command where
  schema :=
    { names := ["listlength"]
      description := "Returns the number of values in a list."
      params := [⟨"name", "The name of the list variable."⟩]
      returns := some "integer" }
  run args := do
    let items ← listItems (← givenName args)
    Step.respond (toString items.length)

def objCreate : Command where
  schema :=
    { names := ["objcreate"]
      description := "Creates an object variable."
      params := [⟨"name", "The name of the object variable."⟩] }
  run args := do
    Step.assign (← givenName args) (.object {})

/-- A name and a key that are both there. -/
def nameAndKey (args : List String) : Step (String × String) := do
  let name ← expanded args 0
  let key ← expanded args 1
  if name = "" ∨ key = "" then throw .usage
  return (name, key)

def objSet : Command where
  schema :=
    { names := ["objset"]
      description := "Sets a key of an object."
      params :=
        [⟨"name", "The name of the object variable."⟩, ⟨"key", "The key."⟩,
         ⟨"value", "The value."⟩] }
  run args := do
    let (name, key) ← nameAndKey args
    let value ← expandedRest args 2
    let fields ← objectFields name
    Step.update name (.object (fields.insert key value))

def objGet : Command where
  schema :=
    { names := ["objget"]
      description := "Gets the value of a key of an object."
      params := [⟨"name", "The name of the object variable."⟩, ⟨"key", "The key."⟩]
      returns := some "string" }
  run args := do
    let (name, key) ← nameAndKey args
    let fields ← objectFields name
    match fields.get? key with
    | some value => Step.respond value
    | none => throw (.unknownKey key)

/-- Each key is a response, in ascending order. -/
def objKeys : Command where
  schema :=
    { names := ["objkeys"]
      description := "Returns the keys of an object."
      params := [⟨"name", "The name of the object variable."⟩]
      returns := some "The keys, one per line" }
  run args := do
    let fields ← objectFields (← givenName args)
    fields.names.forM fun key => Step.respond key

end LineScript.Builtin
