import LineScript.Number.Binary64
import LineScript.Scope
import LineScript.Text.Fields

/-!
# Instances

One run of a script: its lines, the line it is on, and the variables and settings of its own.
The generation tells it from other runs of the same script.
-/

namespace LineScript

/-- What the owner of a line can adjust. -/
structure Settings where
  /-- Characters a minute; none for full speed. -/
  typingSpeed : Option Binary64 := none

/-- The characters of a text in lines, line endings included. -/
def extentOf (source : List String) : Nat :=
  (source.map fun line => line.toList.length + 1).foldl (· + ·) 0

structure Instance where
  name : String
  source : List String
  /-- How much text the source is: a bound on how deep its lines can be nested. -/
  extent : Nat := extentOf source
  extent_eq : extent = extentOf source := by rfl
  /-- The line to run next, from zero. -/
  counter : Nat := 0
  locals : Scope := {}
  settings : Settings := {}
  generation : Nat
  batch : Nat

/-- A new instance of a script's text, on its first line. -/
def Instance.ofText (name text : String) (generation batch : Nat) : Instance :=
  { name, source := Text.sourceLines text, generation, batch }

end LineScript
