import LineScript.Command.Builtin.Arguments

/-!
# Commands on the keyboard

Typing, at a speed of the owner's choice, and single keys.
-/

namespace LineScript.Builtin

/-- A single character or a key with a name. -/
def key (args : List String) : Step String := do
  let key ← expanded args 0
  if isKey key then return key else throw .usage

def keyboardDelay : Command where
  schema :=
    { names := ["keyboarddelay", "kbdelay"]
      description := "Sets the typing delay of the keyboard."
      params := [⟨"delay", "The delay of typing to keyboard in SECONDS."⟩] }
  run args := do
    Step.act (.keyboardDelay (← delay args))

/-- Anything but a positive number means full speed. -/
def typeCpm : Command where
  schema :=
    { names := ["typecpm"]
      description := "Sets the type speed."
      params := [⟨"cpm", "Sets the characters per minute."⟩] }
  run args := do
    let speed ← number? args 0
    Step.setTypingSpeed (speed.filter fun s => (Binary64.zero false).lt s)

def typeText : Command where
  schema :=
    { names := ["type", "typetext"]
      description := "Types a text in the keyboard."
      params := [⟨"text", "The text to type in keyboard."⟩] }
  run args := do
    let text ← expandedRest args 0
    if text = "" then throw .usage
    Step.act (.type text (← Step.typingSpeed))

def keyTap : Command where
  schema :=
    { names := ["keytap"]
      description := "Taps to a key in the keyboard."
      params := [⟨"key", "The key to press in the keyboard."⟩] }
  run args := do
    Step.act (.tapKey (← key args))

def keyDown : Command where
  schema :=
    { names := ["keydown"]
      description := "Presses a key down in the keyboard."
      params := [⟨"key", "The key to press down in the keyboard."⟩] }
  run args := do
    Step.act (.toggleKey (← key args) true)

def keyUp : Command where
  schema :=
    { names := ["keyup"]
      description := "Releases a key in the keyboard."
      params := [⟨"key", "The key to release up in the keyboard."⟩] }
  run args := do
    Step.act (.toggleKey (← key args) false)

end LineScript.Builtin
