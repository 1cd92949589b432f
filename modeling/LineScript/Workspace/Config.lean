import LineScript.Message

/-!
# Configuration
-/

namespace LineScript

structure Config where
  /-- Tells kernels apart. -/
  name : String := "default"
  /-- The folder that scripts are read from; without one they are kept in memory. -/
  scriptFolder : Option String := none
  /-- The ending of the files that hold scripts, without its dot. -/
  extension : String := "neet"
  errorColor : String := Message.defaultErrorColor
  deriving DecidableEq

namespace Config

/-- Without a folder. -/
def isolated : Config := { name := "isolated" }

/-- For a terminal, with scripts from a folder. -/
def terminal (folder : String) : Config :=
  { name := "repl", scriptFolder := some folder }

end Config

end LineScript
