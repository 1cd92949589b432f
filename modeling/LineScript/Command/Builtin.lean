import LineScript.Command.Builtin.Collection
import LineScript.Command.Builtin.Console
import LineScript.Command.Builtin.Flow
import LineScript.Command.Builtin.Keyboard
import LineScript.Command.Builtin.Number
import LineScript.Command.Builtin.Pointer
import LineScript.Command.Builtin.Screen
import LineScript.Command.Builtin.Text
import LineScript.Command.Builtin.Variable
import LineScript.Command.Registry

/-!
# The builtin commands
-/

namespace LineScript

/-- The commands that are always there, in the order in which help lists them. -/
def builtins : List Command :=
  [Builtin.help, Builtin.run, Builtin.clear, Builtin.goto, Builtin.skip, Builtin.visit,
   Builtin.print, Builtin.write, Builtin.wait, Builtin.ifCommand, Builtin.var, Builtin.deleteVar,
   Builtin.glob, Builtin.deleteGlob, Builtin.isNumeric, Builtin.operation, Builtin.math,
   Builtin.random, Builtin.randomF, Builtin.substringCommand, Builtin.replace,
   Builtin.replaceAll, Builtin.assign, Builtin.stop, Builtin.click, Builtin.move, Builtin.drag,
   Builtin.scroll, Builtin.positionCommand, Builtin.pixel, Builtin.screenSize,
   Builtin.mouseDelay, Builtin.keyboardDelay, Builtin.readLine, Builtin.readKey,
   Builtin.typeCpm, Builtin.typeText, Builtin.keyTap, Builtin.keyDown, Builtin.keyUp,
   Builtin.mouseDown, Builtin.mouseUp, Builtin.varType, Builtin.listCreate, Builtin.listAdd,
   Builtin.listGet, Builtin.listLength, Builtin.objCreate, Builtin.objSet, Builtin.objGet,
   Builtin.objKeys]

/-- The registry of the builtin commands. -/
def Registry.standard : Registry :=
  Registry.ofCommands builtins

end LineScript
