import LineScript.Command.Action
import LineScript.Text.Lowercase

/-!
# The registry

The commands in the order in which they were registered, and an index that leads from a name to the
place of its command. Names and aliases share one space in which case does not count: they are
folded when a command is registered and when one is looked up.
-/

namespace LineScript

/-- Why a command is not registered. -/
inductive RegistryError where
  | noNames
  | duplicate (name : String)
  deriving DecidableEq

def RegistryError.message : RegistryError → String
  | .noNames => "command has no names"
  | .duplicate name => "Existing command: " ++ name

structure Registry where
  /-- Names that fold to the same text are the same name. -/
  fold : String → String := Text.lowercase
  commands : List Command := []
  /-- Under every name in use, the place of its command. -/
  index : Bindings Nat := {}

namespace Registry

/-- All names in use. -/
def names (r : Registry) : List String :=
  r.index.entries.map Prod.fst

/-- The first name that is taken, by another command or earlier in the list. -/
def firstTaken? (taken : List String) : List String → Option String
  | [] => none
  | name :: rest => if taken.contains name then some name else firstTaken? (name :: taken) rest

/-- The index with names that lead to a place. -/
def enter (place : Nat) (names : List String) (index : Bindings Nat) : Bindings Nat :=
  names.foldl (fun index name => index.insert name place) index

/-- Add a command under all its names that are not empty. A refused command leaves no trace. -/
def register (r : Registry) (c : Command) : Except RegistryError Registry :=
  let names := (c.schema.names.map r.fold).filter (· != "")
  if names.isEmpty then .error .noNames
  else
    match firstTaken? r.names names with
    | some name => .error (.duplicate name)
    | none =>
      .ok
        { r with
          commands := r.commands ++ [{ c with schema := { c.schema with names } }]
          index := enter r.commands.length names r.index }

/-- The place of the command that goes by the name, in any case. -/
def place? (r : Registry) (name : String) : Option Nat :=
  r.index.get? (r.fold name)

/-- The command that goes by the name. -/
def find? (r : Registry) (name : String) : Option Command :=
  (r.place? name).bind (r.commands[·]?)

def schema? (r : Registry) (name : String) : Option Schema :=
  (r.find? name).map (·.schema)

def schemas (r : Registry) : List Schema :=
  r.commands.map (·.schema)

def size (r : Registry) : Nat :=
  r.commands.length

/-- Register commands one after the other; those that are refused are left out. -/
def ofCommands (commands : List Command) : Registry :=
  commands.foldl (fun r c => (r.register c).toOption.getD r) {}

/-- The state for a person to look at. -/
def describe (r : Registry) : String :=
  "CommandRegistry \x7b commands: " ++ toString r.size ++ ", names: " ++
    toString r.names.length ++ " \x7d"

end Registry

end LineScript
