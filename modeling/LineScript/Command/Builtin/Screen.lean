import LineScript.Command.Builtin.Arguments

/-!
# Commands on the screen

What the device tells about the screen.
-/

namespace LineScript.Builtin

def pixel : Command where
  schema :=
    { names := ["pixel"]
      description := "Gets the color of a pixel on the screen."
      params :=
        [⟨"x", "The X coordinate of the pixel."⟩, ⟨"y", "The Y coordinate of the pixel."⟩]
      returns := some "Color string, Example: #123456" }
  run args := do
    Step.respond (← Step.pixel (← point args))

def screenSize : Command where
  schema :=
    { names := ["screensize", "size"]
      description := "Gets the width and height of the screen."
      params :=
        [⟨"variableWidth", "The variable that will be used for the width of the screen."⟩,
         ⟨"variableHeight", "The variable that will be used for the height of the screen."⟩] }
  run args := do
    let (width, height) ← variablePair args
    let size ← Step.screenSize
    Step.assign width (.text (toString size.width))
    Step.assign height (.text (toString size.height))

end LineScript.Builtin
