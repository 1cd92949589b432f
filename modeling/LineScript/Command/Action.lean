import LineScript.Command.Fault
import LineScript.Command.Schema

/-!
# Actions

What a command does is a tree: at each node it makes a request to the line it runs on and goes on
with the reply. Requests are of two kinds. A `Request` is answered at once; the other four may
suspend the line. What an action means is up to whoever interprets it.
-/

namespace LineScript

/-- The outcome of a line. -/
structure Evaluation where
  /-- An error was reported. -/
  failed : Bool := false
  /-- The line to go to next, from zero, in place of the following one. -/
  jump : Option Nat := none
  /-- The responses with line feeds between them; a partial one extends the one before it. -/
  captured : String := ""
  deriving DecidableEq

/-- What is answered at once. -/
inductive Request where
  /-- Show text without ending the line. -/
  | write (text : String) (style : Style)
  /-- Show a full line. -/
  | respond (text : String) (style : Style)
  /-- Report an error; the line has failed. -/
  | report (text : String)
  | clearScreen
  /-- Go to a line of the owning script next. Refused outside a script and outside its lines. -/
  | jump (index : Nat)
  | currentIndex
  | source
  | isPseudo
  | instanceName
  /-- Replace the references in a template. -/
  | expand (template : String)
  /-- Read a variable, local before global. -/
  | variable (name : String)
  /-- Set a variable of the owner. -/
  | assign (name : String) (value : Value)
  /-- Set a variable where it lives, or else one of the owner. -/
  | update (name : String) (value : Value)
  | remove (name : String)
  | assignGlobal (name : String) (value : Value)
  | removeGlobal (name : String)
  | schemas
  | schema (name : String)
  | act (act : Device.Act)
  | position
  | pixel (point : Point)
  | screenSize
  | typingSpeed
  | setTypingSpeed (speed : Option Binary64)
  /-- A random number from zero up to the bound, the bound left out. -/
  | draw (bound : Nat)

/-- The type of the answer. -/
def Request.Reply : Request → Type
  | .write .. => Unit
  | .respond .. => Unit
  | .report _ => Unit
  | .clearScreen => Unit
  | .jump _ => Bool
  | .currentIndex => Nat
  | .source => List String
  | .isPseudo => Bool
  | .instanceName => Option String
  | .expand _ => String
  | .variable _ => Option Value
  | .assign .. => Except AssignError Unit
  | .update .. => Except AssignError Unit
  | .remove _ => Unit
  | .assignGlobal .. => Except AssignError Unit
  | .removeGlobal _ => Unit
  | .schemas => List Schema
  | .schema _ => Option Schema
  | .act _ => Except DeviceError Unit
  | .position => Except DeviceError Point
  | .pixel _ => Except DeviceError String
  | .screenSize => Except DeviceError ScreenSize
  | .typingSpeed => Option Binary64
  | .setTypingSpeed _ => Unit
  | .draw _ => Nat

/-- A tree of requests with a value at each leaf. -/
inductive Action (α : Type) where
  | done (value : α)
  | ask (request : Request) (next : request.Reply → Action α)
  /-- Evaluate another line for the same owner. -/
  | evaluate (line : String) (quiet : Bool) (next : Evaluation → Action α)
  /-- Suspend the line for a while. -/
  | sleep (duration : Duration) (next : Action α)
  /-- Start scripts and wait until all of them have ended. -/
  | runScripts (names : List String) (next : Except StartError Unit → Action α)
  /-- Wait for a line of input; none if there will be no more. -/
  | readInput (next : Option String → Action α)

namespace Action

variable {α β : Type}

/-- One action after the other. -/
def bind : Action α → (α → Action β) → Action β
  | .done value, f => f value
  | .ask request next, f => .ask request fun reply => (next reply).bind f
  | .evaluate line quiet next, f => .evaluate line quiet fun evaluation => (next evaluation).bind f
  | .sleep duration next, f => .sleep duration (next.bind f)
  | .runScripts names next, f => .runScripts names fun result => (next result).bind f
  | .readInput next, f => .readInput fun line => (next line).bind f

instance : Monad Action where
  pure := .done
  bind := bind

/-- A single request. -/
def request (r : Request) : Action r.Reply :=
  .ask r .done

end Action

/-- An action that may end in a fault. -/
abbrev Step (α : Type) := ExceptT Fault Action α

namespace Step

/-- A single request. -/
def ask (r : Request) : Step r.Reply :=
  ExceptT.lift (Action.request r)

/-- An outcome that is a fault unless it is a value. -/
def ofExcept {ε α : Type} (fault : ε → Fault) : Except ε α → Step α
  | .ok value => pure value
  | .error e => throw (fault e)

/-- A value that has to be there, lest the arguments do not fit. -/
def need {α : Type} : Option α → Step α
  | some value => pure value
  | none => throw .usage

def write (text : String) (style : Style := {}) : Step Unit :=
  ask (.write text style)

def respond (text : String) (style : Style := {}) : Step Unit :=
  ask (.respond text style)

def report (text : String) : Step Unit :=
  ask (.report text)

def clearScreen : Step Unit :=
  ask .clearScreen

def jump (index : Nat) : Step Bool :=
  ask (.jump index)

def currentIndex : Step Nat :=
  ask .currentIndex

def source : Step (List String) :=
  ask .source

def isPseudo : Step Bool :=
  ask .isPseudo

def instanceName : Step (Option String) :=
  ask .instanceName

def expand (template : String) : Step String :=
  ask (.expand template)

def getVariable (name : String) : Step (Option Value) :=
  ask (.variable name)

def assign (name : String) (value : Value) : Step Unit := do
  ofExcept .assign (← ask (.assign name value))

def update (name : String) (value : Value) : Step Unit := do
  ofExcept .assign (← ask (.update name value))

def remove (name : String) : Step Unit :=
  ask (.remove name)

def assignGlobal (name : String) (value : Value) : Step Unit := do
  ofExcept .assign (← ask (.assignGlobal name value))

def removeGlobal (name : String) : Step Unit :=
  ask (.removeGlobal name)

def schemas : Step (List Schema) :=
  ask .schemas

def schema? (name : String) : Step (Option Schema) :=
  ask (.schema name)

def act (a : Device.Act) : Step Unit := do
  ofExcept .device (← ask (.act a))

def position : Step Point := do
  ofExcept .device (← ask .position)

def pixel (point : Point) : Step String := do
  ofExcept .device (← ask (.pixel point))

def screenSize : Step ScreenSize := do
  ofExcept .device (← ask .screenSize)

def typingSpeed : Step (Option Binary64) :=
  ask .typingSpeed

def setTypingSpeed (speed : Option Binary64) : Step Unit :=
  ask (.setTypingSpeed speed)

def draw (bound : Nat) : Step Nat :=
  ask (.draw bound)

def evaluate (line : String) (quiet : Bool) : Step Evaluation :=
  ExceptT.lift (.evaluate line quiet .done)

def sleep (duration : Duration) : Step Unit :=
  ExceptT.lift (.sleep duration (.done ()))

def runScripts (names : List String) : Step Unit := do
  ofExcept .start (← ExceptT.lift (.runScripts names .done))

def readInput : Step (Option String) :=
  ExceptT.lift (.readInput .done)

end Step

/-- What a command does with the raw arguments of its line. -/
abbrev Handler := List String → Step Unit

structure Command where
  schema : Schema
  run : Handler

end LineScript
