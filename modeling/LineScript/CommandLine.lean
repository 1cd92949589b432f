import LineScript.Session
import LineScript.Text.Backspace

/-!
# The command line

What the program does with its arguments: it tells about itself, runs one line, or reads lines
until there are no more. `run` is all of it as a function of the arguments, the standard input,
the files at hand and the environment.
-/

namespace LineScript.CommandLine

def version : String := "0.1.0"

/-- The revision and the day of the build. -/
def build : String := "unknown 2000-01-01"

/-- The environment variable that names the folder of the scripts. -/
def folderVariable : String := "NEET_SCRIPT_DIR"

def prompt : String := "neet> "

def helpText : String :=
  String.intercalate "\n"
    ["neet v" ++ version,
     "",
     "Usage:",
     "  neet                         Interactive REPL",
     "  neet -c <line>               Execute a line and exit",
     "  neet <script>                Run a script from the script directory",
     "",
     "Options:",
     "  -c <line>                    Execute a line and exit",
     "  --scripts <dir>              Script directory (default: $NEET_SCRIPT_DIR or .)",
     "  --json                       Print messages as JSON lines",
     "  -h, --help                   Show this help",
     "  -V, --version                Show version",
     "",
     "Examples:",
     "  neet                         # Start interactive REPL",
     "  neet -c 'print hello'        # Run a line",
     "  neet --scripts ./demo intro  # Run demo/intro.neet",
     "",
     ""]

def versionText : String :=
  "neet " ++ version ++ " (" ++ build ++ ")\n"

def banner : String :=
  "neet v" ++ version ++ "\nType /help for commands, /quit to exit.\n\n"

structure Options where
  folder : Option String := none
  json : Bool := false
  command : Option String := none
  script : Option String := none
  deriving DecidableEq

/-- What the arguments ask for. -/
inductive Plan where
  | tell (text : String)
  /-- Refuse the arguments and say why. -/
  | refuse (text : String)
  | work (options : Options)
  deriving DecidableEq

/-- What the arguments ask for, read from left to right; the first thing to tell or to refuse
decides. -/
def Plan.ofArguments (options : Options) : List String → Plan
  | [] => .work options
  | "--help" :: _ => .tell helpText
  | "-h" :: _ => .tell helpText
  | "--version" :: _ => .tell versionText
  | "-V" :: _ => .tell versionText
  | ["-c"] => .refuse "Error: -c requires a line argument\n"
  | "-c" :: line :: rest => ofArguments { options with command := some line } rest
  | ["--scripts"] => .refuse "Error: --scripts requires a directory\n"
  | "--scripts" :: folder :: rest => ofArguments { options with folder := some folder } rest
  | "--json" :: rest => ofArguments { options with json := true } rest
  | word :: rest =>
    if word.toList.head? != some '-' && options.script.isNone then
      ofArguments { options with script := some word } rest
    else
      .refuse ("Unknown option: " ++ word ++ "\nRun 'neet --help' for usage.\n")

/-- The line to run, unless lines are to be read. -/
def Options.line? (options : Options) : Option String :=
  match options.command with
  | some line => some line
  | none => options.script.map ("run " ++ ·)

/-- Where the program runs. -/
structure Surroundings where
  files : Files := {}
  /-- The value of `folderVariable`. -/
  folder : Option String := none
  /-- How text is shown. -/
  textMode : OutputMode := .plain
  /-- The random numbers that scripts will draw. -/
  entropy : Entropy := {}

/-- A session as the options and the surroundings want it. -/
def openSession (options : Options) (here : Surroundings) : Except KernelError Session := do
  let folder := options.folder.getD (here.folder.getD ".")
  let kernel ← Kernel.create (Config.terminal folder) here.files
  let workspace := { kernel.workspace with entropy := here.entropy }
  let s : Session :=
    { kernel := { kernel with workspace }, mode := here.textMode, textMode := here.textMode }
  return if options.json then s.setJson true else s

/-- The text with four blanks before each of its lines. -/
def indented (text : String) : String :=
  "    " ++ Text.replaceAll "\n" "\n    " text

def noKernelText (e : KernelError) : String :=
  "Error: Failed to create kernel\n\nCaused by:\n" ++ indented e.message ++ "\n"

/-- The exit code after a single line. -/
def exitCode (evaluation : Evaluation) : Nat :=
  if evaluation.failed then 1 else 0

/-- A line of standard input without its ending, when lines are read for the prompt: one line
feed with at most one carriage return before it. -/
def withoutEnding (line : String) : String :=
  match line.toList.reverse with
  | '\n' :: '\r' :: rest => String.ofList rest.reverse
  | '\n' :: rest => String.ofList rest.reverse
  | _ => line

/-- A line as it was typed at the prompt. -/
def typedLine (line : String) : String :=
  Text.eraseBackspaces (withoutEnding line)

/-- What a program leaves behind. -/
structure Outcome where
  code : Nat := 0
  out : String := ""
  err : String := ""
  deriving DecidableEq

/-- Read lines at the prompt until they run out or one of them quits. -/
def converse (effort : Session.Effort) : Nat → Session → String → List String → String
  | 0, _, shown, _ => shown
  | _ + 1, _, shown, [] => shown ++ prompt ++ "^D\n"
  | fuel + 1, s, shown, line :: rest =>
    match Directive.ofLine? line with
    | some .quit => shown ++ prompt
    | some directive =>
      let obeyed := s.obey directive
      let text :=
        match obeyed.1 with
        | some text => text ++ "\n"
        | none => ""
      converse effort fuel obeyed.2 (shown ++ prompt ++ text) rest
    | none =>
      let executed := s.run effort line rest
      converse effort fuel executed.session (shown ++ prompt ++ executed.output) executed.unused

/-- The lines of standard input, each with its ending. -/
def inputLines (stdin : String) : List String :=
  (Text.splitKeepingEnds stdin.toList).map String.ofList

/-- The whole program. -/
def run (effort : Session.Effort) (arguments : List String) (stdin : String)
    (here : Surroundings) : Outcome :=
  match Plan.ofArguments {} arguments with
  | .tell text => { out := text }
  | .refuse text => { code := 1, err := text }
  | .work options =>
    match openSession options here with
    | .error e => { code := 1, err := noKernelText e }
    | .ok s =>
      match options.line? with
      | some line =>
        let input := (inputLines stdin).map Text.dropLineEnding
        let executed := s.run effort line input
        { code := exitCode executed.evaluation, out := executed.output }
      | none =>
        let lines := (inputLines stdin).map typedLine
        { out := banner ++ converse effort (lines.length + 1) s "" lines }

end LineScript.CommandLine
