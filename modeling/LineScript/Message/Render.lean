import LineScript.Json
import LineScript.Message.Color

/-!
# Showing messages

A message is shown as plain text, as text with terminal colours, or as a line of JSON. What has
no visible form in a mode is not shown at all.
-/

namespace LineScript

/-- How messages are shown. -/
inductive OutputMode where
  | plain | ansi | json
  deriving DecidableEq

namespace Style

/-- The colours that are set, and only those. -/
def toJson (s : Style) : Json :=
  let field (name : String) (value : Option String) : List (String × Json) :=
    match value with
    | some color => [(name, .string color)]
    | none => []
  .object (field "color" s.color ++ field "background" s.background)

/-- The terminal's codes for the colours that can be read. -/
def codes (s : Style) : List String :=
  let code (place : String) (value : Option String) : List String :=
    match value.bind Color.ofText? with
    | some color => [color.code place]
    | none => []
  code "38" s.color ++ code "48" s.background

/-- The line feeds at the end of a text, and what stands before them. -/
def splitTail (text : List Char) : List Char × List Char :=
  let tail := text.reverse.takeWhile (· == '\n')
  ((text.reverse.dropWhile (· == '\n')).reverse, tail)

/-- The text between escapes that set and reset its colours. Line feeds at its end stay
outside. -/
def paint (s : Style) (text : String) : String :=
  match s.codes with
  | [] => text
  | codes =>
    let parts := splitTail text.toList
    "\x1b[" ++ String.intercalate ";" codes ++ "m" ++ String.ofList parts.1 ++ "\x1b[0m" ++
      String.ofList parts.2

end Style

namespace Message

def toJson : Message → Json
  | .output text style =>
    .object [("event", .string "output"), ("text", .string text), ("style", style.toJson)]
  | .error text style =>
    .object [("event", .string "error"), ("text", .string text), ("style", style.toJson)]
  | .clear => .object [("event", .string "clear")]
  | .input enabled => .object [("event", .string "input"), ("enabled", .bool enabled)]
  | .scripts names =>
    .object [("event", .string "scripts"), ("names", .array (names.map .string))]

/-- What is shown for a message. -/
def render? (mode : OutputMode) (m : Message) : Option String :=
  match mode with
  | .json => some (m.toJson.toText ++ "\n")
  | .plain => m.text?
  | .ansi =>
    match m with
    | .output text style => some (style.paint text)
    | .error text style => some (style.paint text)
    | .clear => some "\x1b[2J\x1b[H"
    | _ => none

end Message

end LineScript
