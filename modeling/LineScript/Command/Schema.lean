/-!
# Schemas

What a command tells about itself: its names, what it does and the arguments it takes.
-/

namespace LineScript

/-- An argument and what it means. -/
structure Param where
  name : String
  description : String
  deriving DecidableEq

/-- The first name is the command's own, the others are aliases. -/
structure Schema where
  names : List String
  description : String
  params : List Param := []
  /-- A usage line in place of the one made of the arguments. -/
  usageTop : Option String := none
  /-- What the command responds with. -/
  returns : Option String := none
  deriving DecidableEq

namespace Schema

def name (s : Schema) : String :=
  s.names.headD ""

def aliases (s : Schema) : List String :=
  s.names.tail

/-- The usage line, then a line for each argument. -/
def usage (s : Schema) : String :=
  let top :=
    match s.usageTop with
    | some top => top
    | none => String.intercalate " " (s.params.map fun p => "[" ++ p.name ++ "]")
  let lines := s.params.map fun p => "  " ++ p.name ++ " - " ++ p.description
  top ++ "\n" ++ String.intercalate "\n" lines

/-- All there is to know about the command. -/
def help (s : Schema) : String :=
  "Command: " ++ s.name ++
    (if s.aliases.isEmpty then "" else "\nAliases: " ++ String.intercalate ", " s.aliases) ++
    "\nDescription: " ++ s.description ++
    "\nUsage: " ++ s.name ++ " " ++ s.usage ++
    "\nReturns: " ++ s.returns.getD "nothing"

end Schema

end LineScript
