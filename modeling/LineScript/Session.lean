import LineScript.Kernel.Await
import LineScript.Message.Render
import LineScript.Session.Directive

/-!
# Sessions

A kernel at a terminal. A line is a directive or goes to the kernel; while the kernel is at it,
the session looks after it at short intervals: it shows what was said and answers each request
for input once.
-/

namespace LineScript

structure Session where
  kernel : Kernel
  mode : OutputMode := .plain
  /-- How text is shown when JSON is off. -/
  textMode : OutputMode := .plain
  /-- The requests for input that have been answered. -/
  served : Nat := 0
  /-- The user has asked to quit. -/
  isOver : Bool := false

namespace Session

def setJson (s : Session) (json : Bool) : Session :=
  { s with mode := if json then .json else s.textMode }

/-- A variable on one line. -/
def showValue : Value → String
  | .text text => "\"" ++ text ++ "\""
  | .list items => "[" ++ String.intercalate ", " items ++ "]"
  | .object fields =>
    "\x7b" ++ String.intercalate ", " (fields.sorted.map fun f => f.1 ++ ": " ++ f.2) ++ "\x7d"

def showVariables (globals : Scope) : String :=
  match globals.all with
  | [] => "(no variables set)"
  | all =>
    let lines := all.map fun v => "  " ++ v.1 ++ " = " ++ showValue v.2 ++ "\n"
    Text.trimEnd ("Variables:\n" ++ String.join lines)

/-- The names on a line each, or another text if there are none. -/
def showNames (none : String) : List String → String
  | [] => none
  | names => String.intercalate "\n" names

def helpText : String :=
  String.intercalate "\n"
    ["neet REPL",
     "",
     "Meta Commands:",
     "  /help, /?           Show this help",
     "  /quit, /q, quit     Exit the REPL",
     "  /scripts            List scripts in the script directory",
     "  /active             List running scripts",
     "  /stop [name|all]    Stop running scripts (default: all)",
     "  /vars               Show global variables",
     "  /json               Toggle JSON-lines output",
     "",
     "Lines:",
     "  Anything else runs as a neet line, e.g.",
     "    print hello $name",
     "    var name world",
     "    run intro other",
     "  Type `help` for the command list, `help <command>` for usage.",
     "",
     "Variables:",
     "  $name               Replaced by a text variable's value",
     "  $$n, $$s            Newline and space",
     ""]

/-- Obey a directive. The result is what it shows, if it shows anything. -/
def obey (s : Session) : Directive → Option String × Session
  | .quit => (none, { s with isOver := true })
  | .help => (some helpText, s)
  | .toggleJson =>
    let json := s.mode != .json
    (some ("JSON mode: " ++ if json then "ON" else "OFF"), s.setJson json)
  | .scripts =>
    match s.kernel.scriptNames with
    | .ok names => (some (showNames "(no scripts found)" names), s)
    | .error e => (some ("Failed to list scripts: " ++ e.message), s)
  | .active => (some (showNames "(no running scripts)" s.kernel.activeNames), s)
  | .stop target =>
    let stopped := s.kernel.stop target
    let text :=
      match stopped.1 with
      | [] => "(nothing stopped)"
      | names => "Stopped: " ++ String.intercalate ", " names
    (some text, { s with kernel := stopped.2 })
  | .variables => (some (showVariables s.kernel.workspace.globals), s)
  | .unknown word =>
    (some ("Unknown command: " ++ word ++ "\nType /help for available commands."), s)

/-- Show what is waiting on the bus. -/
def flush (s : Session) : String × Session :=
  let drained := s.kernel.drain
  (String.join (drained.1.filterMap (Message.render? s.mode)), { s with kernel := drained.2 })

/-- Hand a line to the kernel. The result holds its number. -/
def submit (s : Session) (line : String) : Nat × Session :=
  let submitted := s.kernel.submit line
  (submitted.1, { s with kernel := submitted.2 })

/-- How a line is doing. -/
inductive Progress where
  | finished (evaluation : Evaluation)
  /-- It goes on, and asks for so many lines of input. -/
  | asks (count : Nat)

/-- The milliseconds between two looks. -/
def interval : Nat := 10

/-- Let a line go on for an interval, and look after it. -/
def poll (rounds : Nat) (s : Session) (id : Nat) : Progress × String × Session :=
  let awaited := s.kernel.await (.line id) (s.kernel.workspace.now + interval) rounds
  let taken := awaited.2.takeLine id
  match taken.1 with
  | some evaluation =>
    let flushed := { s with kernel := taken.2, served := taken.2.workspace.requests }.flush
    (.finished evaluation, flushed.1, flushed.2)
  | none =>
    let flushed := { s with kernel := awaited.2 }.flush
    (.asks (flushed.2.kernel.workspace.requests - flushed.2.served), flushed.1, flushed.2)

/-- Answer a request for input. -/
def answer (s : Session) (line : String) : Session :=
  { s with kernel := s.kernel.provideInput line, served := s.served + 1 }

/-- Answer requests from a list of lines, and with empty text when it has run out. The result
holds the lines that are left. -/
def answerFrom (s : Session) : Nat → List String → List String × Session
  | 0, lines => (lines, s)
  | count + 1, lines => (s.answer (lines.headD "")).answerFrom count lines.tail

/-- What came of a line. -/
structure Executed where
  evaluation : Evaluation
  output : String
  /-- The lines of input that nobody asked for. -/
  unused : List String
  session : Session

/-- How hard a session tries. -/
structure Effort where
  /-- The most looks at a line. -/
  polls : Nat
  /-- The most rounds of turns between two looks. -/
  rounds : Nat

/-- Look after a line until it is finished. -/
def follow (rounds : Nat) (id : Nat) : Nat → Session → String → List String → Executed
  | 0, s, shown, lines => ⟨{}, shown, lines, { s with kernel := s.kernel.dropLine id }⟩
  | polls + 1, s, shown, lines =>
    match s.poll rounds id with
    | (.finished evaluation, output, s) => ⟨evaluation, shown ++ output, lines, s⟩
    | (.asks count, output, s) =>
      let answered := s.answerFrom count lines
      follow rounds id polls answered.2 (shown ++ output) answered.1

/-- Run a line, with lines of input for those who ask. -/
def run (effort : Effort) (s : Session) (line : String) (input : List String) : Executed :=
  let submitted := s.submit line
  follow effort.rounds submitted.1 effort.polls submitted.2 "" input

/-- Take a line, be it a directive or not; requests for input get empty text. -/
def handle (effort : Effort) (s : Session) (line : String) : Option String × Session :=
  match Directive.ofLine? line with
  | some directive => s.obey directive
  | none =>
    let executed := s.run effort line []
    (if executed.output = "" then none else some executed.output, executed.session)

end Session

end LineScript
