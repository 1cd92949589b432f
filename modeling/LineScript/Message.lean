/-!
# Messages

What a front end is told, in order: text to show, with its colours, and changes of state.
-/

namespace LineScript

/-- The colours of a piece of text, as written. -/
structure Style where
  color : Option String := none
  background : Option String := none
  deriving DecidableEq

namespace Style

def plain : Style := {}

/-- Text in a foreground colour. -/
def colored (color : String) : Style :=
  { color := some color }

def isPlain (s : Style) : Bool :=
  s.color.isNone && s.background.isNone

end Style

inductive Message where
  /-- Text to show. A full response ends in a line feed, a partial one does not. -/
  | output (text : String) (style : Style)
  /-- An error text that names its origin. -/
  | error (text : String) (style : Style)
  /-- The terminal is to be cleared. -/
  | clear
  /-- Whether typed input is accepted. -/
  | input (enabled : Bool)
  /-- The running scripts have changed. -/
  | scripts (names : List String)
  deriving DecidableEq

namespace Message

/-- The colour of errors unless a host chooses another. -/
def defaultErrorColor : String := "#ff0000"

def text? : Message → Option String
  | .output text _ => some text
  | .error text _ => some text
  | _ => none

def style? : Message → Option Style
  | .output _ style => some style
  | .error _ style => some style
  | _ => none

def isOutput : Message → Bool
  | .output .. => true
  | _ => false

def isError : Message → Bool
  | .error .. => true
  | _ => false

end Message

/-- The queue between those who say something and the front end: messages wait in the order in
which they were pushed, and a drain hands over all of them. -/
structure Bus where
  pending : Array Message := #[]

namespace Bus

def push (b : Bus) (m : Message) : Bus :=
  ⟨b.pending.push m⟩

/-- Several messages in one piece. -/
def extend (b : Bus) (ms : List Message) : Bus :=
  ⟨b.pending ++ ms⟩

/-- All waiting messages, and the empty bus. -/
def drain (b : Bus) : List Message × Bus :=
  (b.pending.toList, {})

def size (b : Bus) : Nat :=
  b.pending.size

def isEmpty (b : Bus) : Bool :=
  b.pending.isEmpty

@[simp] theorem toList_push (b : Bus) (m : Message) :
    (b.push m).pending.toList = b.pending.toList ++ [m] := by
  simp [push]

@[simp] theorem toList_extend (b : Bus) (ms : List Message) :
    (b.extend ms).pending.toList = b.pending.toList ++ ms := by
  simp [extend]

end Bus

end LineScript
