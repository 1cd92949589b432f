import LineScript.Command.Builtin.Arguments

/-!
# Commands on the pointer

Moving, clicking and scrolling. The arguments are checked here; the work is the device's.
-/

namespace LineScript.Builtin

/-- One of the allowed buttons; the left one if none is named. -/
def button (args : List String) (allowed : List MouseButton) : Step MouseButton := do
  let name ← expanded args 0
  Step.need ((MouseButton.ofName? (if name = "" then "left" else name)).filter allowed.contains)

def anyButton : List MouseButton :=
  [.left, .right, .middle]

/-- Whether a click is double, by its word. -/
def isDouble? : String → Option Bool
  | "" => some false
  | "single" => some false
  | "double" => some true
  | _ => none

def click : Command where
  schema :=
    { names := ["click"]
      description := "Clicks the mouse."
      params :=
        [⟨"button", "The mouse button. Can be: left, right. Default: left"⟩,
         ⟨"type", "The click type. Can be: double, single. Default: single"⟩] }
  run args := do
    let button ← button args [.left, .right]
    let double ← Step.need (isDouble? (← expanded args 1))
    Step.act (.click button double)

/-- The fastest that the pointer moves along a path. -/
def fastestMove : Binary64 :=
  Binary64.ofNat 10

def move : Command where
  schema :=
    { names := ["move"]
      description := "Moves the mouse."
      params :=
        [⟨"x", "The X coordinate to move to."⟩, ⟨"y", "The Y coordinate to move to."⟩,
         ⟨"speed?", "The speed of the mouse movement. OPTIONAL."⟩] }
  run args := do
    let target ← point args
    let word ← expanded args 2
    if word = "" then Step.act (.move target)
    else
      let speed ← Step.need ((Number.ofText? word).filter fun s => (Binary64.zero false).lt s)
      if fastestMove.lt speed then throw .moveTooFast
      Step.act (.moveSmooth target speed)

def drag : Command where
  schema :=
    { names := ["drag"]
      description := "Drags the mouse with mouse button held down."
      params := [⟨"x", "The X coordinate to drag to."⟩, ⟨"y", "The Y coordinate to drag to."⟩] }
  run args := do
    Step.act (.drag (← point args))

def scroll : Command where
  schema :=
    { names := ["scroll"]
      description := "Scrolls the mouse in any direction."
      params := [⟨"x", "The X amount of the scroll."⟩, ⟨"y", "The Y amount of the scroll."⟩] }
  run args := do
    let amount ← point args
    Step.act (.scroll amount.x amount.y)

def positionCommand : Command where
  schema :=
    { names := ["position"]
      description := "Gets the position of the mouse."
      params :=
        [⟨"variableX", "The variable that will be used for the X value of the mouse."⟩,
         ⟨"variableY", "The variable that will be used for the Y value of the mouse."⟩] }
  run args := do
    let (x, y) ← variablePair args
    let pointer ← Step.position
    Step.assign x (.text (Number.text pointer.x))
    Step.assign y (.text (Number.text pointer.y))

def mouseDelay : Command where
  schema :=
    { names := ["mousedelay", "msdelay"]
      description := "Sets the delay of the mouse."
      params := [⟨"delay", "The delay of the mouse in SECONDS."⟩] }
  run args := do
    Step.act (.mouseDelay (← delay args))

def mouseDown : Command where
  schema :=
    { names := ["mousedown"]
      description := "Presses a mouse button down in the mouse."
      params := [⟨"button", "The button to press down in the mouse."⟩] }
  run args := do
    Step.act (.toggleButton (← button args anyButton) true)

def mouseUp : Command where
  schema :=
    { names := ["mouseup"]
      description := "Releases a mouse button in the mouse."
      params := [⟨"button", "The button to release in the mouse."⟩] }
  run args := do
    Step.act (.toggleButton (← button args anyButton) false)

end LineScript.Builtin
