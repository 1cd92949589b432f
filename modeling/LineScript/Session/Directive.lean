import LineScript.Script.Scheduler
import LineScript.Text.Blank

/-!
# Directives

Lines that are for the session itself and not for the kernel. They start with a slash, except
for the words to quit with.
-/

namespace LineScript

inductive Directive where
  | quit
  | help
  | toggleJson
  | scripts
  | active
  | stop (target : StopTarget)
  | variables
  | unknown (word : String)
  deriving DecidableEq

namespace Directive

def startsWithSlash (word : String) : Bool :=
  word.toList.head? == some '/'

/-- The directive that a word names, given the word after it. -/
def ofWord? (word : String) (argument : Option String) : Option Directive :=
  if word ∈ ["/quit", "/q", "/exit", "quit", "exit"] then some .quit
  else if word ∈ ["/help", "/h", "/?"] then some .help
  else if word = "/json" then some .toggleJson
  else if word = "/scripts" then some .scripts
  else if word ∈ ["/active", "/jobs"] then some .active
  else if word = "/stop" then some (.stop ((argument.map StopTarget.ofWord).getD .all))
  else if word ∈ ["/vars", "/scope"] then some .variables
  else if startsWithSlash word then some (.unknown word)
  else none

/-- The directive that a line holds. -/
def ofLine? (line : String) : Option Directive :=
  match Text.words line with
  | [] => none
  | word :: rest => ofWord? word rest.head?

end Directive

end LineScript
