import LineScript.Device
import LineScript.Scope
import LineScript.Script.Scheduler

/-!
# Faults

The ways in which a command can fail. `usage` means that the arguments do not fit the command;
its text is made from the command's schema.
-/

namespace LineScript

inductive Fault where
  | usage
  | assign (error : AssignError)
  | start (error : StartError)
  | device (error : DeviceError)
  | gotoSameLine
  | visitSameLine
  | visitOutsideScript
  | stopOutsideScript
  | stopCommanded
  | clearInScript
  | firstNotNumeric
  | secondNotNumeric
  | notFinite
  | moveTooFast
  | noInput
  | noHelp
  | wrongKind (name : String) (expected : Kind)
  | unknownVariable (name : String)
  | indexOutOfRange (index : Int)
  | unknownKey (key : String)
  /-- A failure of a command that the host added. -/
  | other (message : String)
  deriving DecidableEq

namespace Fault

/-- The article that goes with the name of a kind. -/
def article : Kind → String
  | .object => "an"
  | _ => "a"

def message : Fault → String
  | .usage => "invalid usage"
  | .assign error => error.message
  | .start error => error.message
  | .device error => error.message
  | .gotoSameLine => "You cannot go to the same line!"
  | .visitSameLine => "You cannot visit the same line!"
  | .visitOutsideScript => "Running line is only allowed in scripts."
  | .stopOutsideScript => "Exiting is only allowed in scripts."
  | .stopCommanded => "Commanded stop action."
  | .clearInScript => "Clearing is only allowed in the terminal."
  | .firstNotNumeric => "Expected first value to be a numeric."
  | .secondNotNumeric => "Expected second value to be a numeric."
  | .notFinite => "The result is not a finite number."
  | .moveTooFast => "Move speed cannot be bigger than 10."
  | .noInput => "No input available."
  | .noHelp => "This command is not supported by the help utility."
  | .wrongKind name expected =>
    "'" ++ name ++ "' is not " ++ article expected ++ " " ++ expected.name ++ " variable."
  | .unknownVariable name => "Variable not found: " ++ name
  | .indexOutOfRange index => "Index out of range: " ++ toString index
  | .unknownKey key => "Key not found: " ++ key
  | .other message => message

end Fault

end LineScript
