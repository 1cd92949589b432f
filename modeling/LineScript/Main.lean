import LineScript.CommandLine

/-!
# The program

The command line with a real terminal, real files and real time. What it does at each point is
decided elsewhere; here lines are read, texts are written and time is waited for.
-/

namespace LineScript.Main

open CommandLine

/-- The rounds of turns between two looks at a running line. -/
def rounds : Nat := 100000

/-- The `n`th random word of a seed: a multiple of an odd number, added to the seed, with its bits
mixed so that every bit of it turns up everywhere. -/
def word (seed : UInt64) (n : Nat) : Nat :=
  let start := seed + UInt64.ofNat (n + 1) * 0x9e3779b97f4a7c15
  let once := (start ^^^ (start >>> 30)) * 0xbf58476d1ce4e5b9
  let twice := (once ^^^ (once >>> 27)) * 0x94d049bb133111eb
  (twice ^^^ (twice >>> 31)).toNat

/-- The text of a file, unless it is no text. -/
def readText (path : String) : IO (Option String) := do
  try
    return some (← IO.FS.readFile path)
  catch _ => return none

/-- A picture of a folder and the full path of the folder; nothing is in the picture of a folder
that cannot be listed. -/
def look (folder : String) : IO (Files × String) := do
  try
    let full ← IO.FS.realPath folder
    let place (names : List String) : Place := ⟨true, names⟩
    let names := (Files.segments full.toString).filter (· != "")
    let mut nodes : List (Place × FileNode) := [(place names, .folder)]
    for entry in ← full.readDir do
      if ← entry.path.isDir then
        nodes := (place (names ++ [entry.fileName]), .folder) :: nodes
      else
        let text ← readText entry.path.toString
        nodes := (place (names ++ [entry.fileName]), .file text) :: nodes
    return ({ nodes }, full.toString)
  catch _ => return ({}, folder)

/-- The session with the folder as it is now. -/
def refresh (s : Session) : IO Session := do
  match s.kernel.workspace.store with
  | .folder f =>
    let (files, _) ← look f.root
    let workspace := { s.kernel.workspace with store := .folder { f with files } }
    return { s with kernel := { s.kernel with workspace } }
  | .memory _ => return s

/-- A line of standard input with its ending, or nothing at the end. -/
def nextLine : IO (Option String) := do
  let line ← (← IO.getStdin).getLine
  return if line = "" then none else some line

def display (text : String) : IO Unit := do
  let out ← IO.getStdout
  out.putStr text
  out.flush

/-- Look after a line until it is finished. -/
partial def follow (answer : IO String) (id : Nat) (s : Session) : IO (Evaluation × Session) := do
  let (progress, output, s) := s.poll rounds id
  if s.kernel.isLost then throw (IO.userError "lines are nested without end")
  display output
  match progress with
  | .finished evaluation => return (evaluation, s)
  | .asks count =>
    let mut s := s
    for _ in [0:count] do
      s := s.answer (← answer)
    IO.sleep (UInt32.ofNat Session.interval)
    follow answer id s

def runLine (answer : IO String) (line : String) (s : Session) : IO (Evaluation × Session) := do
  let (id, s) := (← refresh s).submit line
  follow answer id s

/-- Read lines at the prompt until they run out or one of them quits. -/
partial def converse (s : Session) : IO Unit := do
  display prompt
  match (← nextLine).map typedLine with
  | none => display "^D\n"
  | some line =>
    match Directive.ofLine? line with
    | some .quit => return
    | some directive =>
      let (text, s) := (← refresh s).obey directive
      match text with
      | some text => display (text ++ "\n")
      | none => pure ()
      converse s
    | none =>
      let answer := do return ((← nextLine).map typedLine).getD ""
      let (_, s) ← runLine answer line s
      converse s

/-- The surroundings that the options ask for, and the options with the full path. -/
def surroundings (options : Options) : IO (Options × Surroundings) := do
  let folder := options.folder.getD ((← IO.getEnv folderVariable).getD ".")
  let (files, path) ← look folder
  let textMode := if ← (← IO.getStdout).isTty then .ansi else .plain
  let seed := UInt64.ofNat (← IO.monoNanosNow)
  return ({ options with folder := some path },
    { files, textMode, entropy := { word := word seed } })

def work (options : Options) : IO UInt32 := do
  let (options, here) ← surroundings options
  match openSession options here with
  | .error e =>
    (← IO.getStderr).putStr (noKernelText e)
    return 1
  | .ok s =>
    match options.line? with
    | some line =>
      let answer := do return ((← nextLine).map Text.dropLineEnding).getD ""
      let (evaluation, _) ← runLine answer line s
      return UInt32.ofNat (exitCode evaluation)
    | none =>
      display banner
      converse s
      return 0

end LineScript.Main

open LineScript in
def main (arguments : List String) : IO UInt32 := do
  match CommandLine.Plan.ofArguments {} arguments with
  | .tell text =>
    Main.display text
    return 0
  | .refuse text =>
    (← IO.getStderr).putStr text
    return 1
  | .work options => Main.work options
