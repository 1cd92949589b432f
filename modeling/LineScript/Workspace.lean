import LineScript.Command.Registry
import LineScript.Entropy
import LineScript.Workspace.Config

/-!
# The workspace

What all lines and scripts share. Its operations are those that more than one of them needs:
host requests, input, the start and the end of scripts.

Input is handed out in the order in which it was asked for: whoever waits for a line holds a
ticket, and only the first ticket is served. A reader that comes to the front because the one
before it has left takes its place with its next turn.
-/

namespace LineScript

structure Workspace where
  config : Config
  registry : Registry
  device : Device
  store : Store
  globals : Scope := {}
  bus : Bus := {}
  scheduler : Scheduler := {}
  /-- The settings of the terminal, which owns the bare lines. -/
  terminal : Settings := {}
  /-- The host requests in flight. -/
  busy : Nat := 0
  /-- The reads of input that have started so far. -/
  requests : Nat := 0
  /-- Lines of input that nobody has read. -/
  inputs : List String := []
  /-- The tickets of those who wait for input, the first to be served in front. -/
  readers : List Nat := []
  /-- The first of them has taken its place. -/
  seated : Bool := false
  /-- Instances that have started and are not driven yet. -/
  inbox : List Instance := []
  /-- Somebody drives the scripts. -/
  driven : Bool := true
  /-- The time, in milliseconds. -/
  now : Nat := 0
  entropy : Entropy := {}

namespace Workspace

/-- The longest time that a timer runs, in milliseconds: thirty years. -/
def longestTimer : Nat := 30 * 365 * 24 * 60 * 60 * 1000

/-- When a timer goes off that is set now. -/
def timerAfter (ws : Workspace) (milliseconds : Nat) : Nat :=
  ws.now + min milliseconds longestTimer

def push (ws : Workspace) (m : Message) : Workspace :=
  { ws with bus := ws.bus.push m }

def publish (ws : Workspace) (ms : List Message) : Workspace :=
  { ws with bus := ws.bus.extend ms }

/-- A host request is in flight from here on. -/
def beginRequest (ws : Workspace) : Workspace :=
  { ws with busy := ws.busy + 1 }.push (.input false)

/-- A host request is over. Only the last one in flight gives input back. -/
def endRequest (ws : Workspace) : Workspace :=
  let after := { ws with busy := ws.busy - 1 }
  if ws.busy = 1 then after.push (.input true) else after

/-- A line of input for whoever asks first. -/
def provideInput (ws : Workspace) (line : String) : Workspace :=
  { ws with inputs := ws.inputs ++ [line] }

/-- A read of input has started. The result holds its ticket, the number of the read. -/
def askInput (ws : Workspace) : Workspace × Nat :=
  let asked := { ws.push (.input true) with requests := ws.requests + 1 }
  let seated := ws.seated || ws.readers.isEmpty
  ({ asked with readers := ws.readers ++ [ws.requests], seated }, ws.requests)

def isFirst (ws : Workspace) (ticket : Nat) : Bool :=
  ws.readers.head? == some ticket

/-- The ticket is the first one and there is a line for it. -/
def canRead (ws : Workspace) (ticket : Nat) : Bool :=
  ws.isFirst ticket && !ws.inputs.isEmpty

/-- Take the place in front, if the ticket is the first one. -/
def takePlace (ws : Workspace) (ticket : Nat) : Workspace :=
  { ws with seated := ws.seated || ws.isFirst ticket }

/-- Give a ticket back. -/
def leaveQueue (ws : Workspace) (ticket : Nat) : Workspace :=
  { ws with
    readers := ws.readers.filter (· != ticket)
    seated := ws.seated && !ws.isFirst ticket }

/-- Take the first line of input and give the ticket back. -/
def readInput (ws : Workspace) (ticket : Nat) : Option String × Workspace :=
  (ws.inputs.head?,
    ({ ws with inputs := ws.inputs.tail }.leaveQueue ticket).push (.input (ws.busy == 0)))

/-- The texts of scripts, in order, or what is wrong with the first that has none. -/
def loadScripts (store : Store) : List String → Except StartError (List (String × String))
  | [] => .ok []
  | name :: rest =>
    match store.load name with
    | .error e => .error (.store e)
    | .ok none => .error (.unknownScript name)
    | .ok (some text) => do return (name, text) :: (← loadScripts store rest)

/-- A batch that has started. -/
structure Started where
  batch : Nat
  names : List String

/-- Register a batch of scripts with their texts and hand their instances to the driver. -/
def enlist (ws : Workspace) (scripts : List (String × String)) :
    Except StartError (Started × Workspace) := do
  let e ← ws.scheduler.enroll scripts
  return (⟨e.batch, e.names⟩,
    { ws.publish e.messages with
      scheduler := e.scheduler
      inbox := ws.inbox ++ e.instances })

/-- Start a batch of scripts: all of them, or none if something can be said against one. -/
def startBatch (ws : Workspace) (invoker : Option String) (names : List String) :
    Except StartError (Started × Workspace) := do
  if !ws.driven then throw .noDriver
  ws.scheduler.check invoker names
  ws.enlist (← loadScripts ws.store names)

/-- The instance is running. -/
def isCurrent (ws : Workspace) (i : Instance) : Bool :=
  ws.scheduler.isCurrent i.name i.generation

/-- Entries leave the active set. -/
def strike (ws : Workspace) (gone : List Active) : Workspace :=
  { ws with scheduler := ws.scheduler.strike gone }

/-- The front end is told which scripts are running. -/
def announce (ws : Workspace) : Workspace :=
  ws.push ws.scheduler.announcement

/-- The batches of entries that have left are told, one after the other. -/
def countDown (ws : Workspace) (told : List Active) : Workspace :=
  { ws with scheduler := ws.scheduler.countDown told }

/-- Remove entries. Their batches are told last, so whoever waits for a batch never sees its end
before the front end has the new list. -/
def remove (ws : Workspace) (gone : List Active) : Workspace :=
  (ws.strike gone).announce.countDown gone

/-- Remove an instance that ended by itself, unless it is not current any more. -/
def finish (ws : Workspace) (ended : Instance) : Workspace :=
  if ws.isCurrent ended then ws.remove [ended.entry] else ws

/-- Remove running instances from outside. The result holds their names. -/
def stop (ws : Workspace) (target : StopTarget) : List String × Workspace :=
  let gone := ws.scheduler.targeted target
  (gone.map (·.name), if gone.isEmpty then ws else ws.remove gone)

end Workspace

end LineScript
