import LineScript.Message
import LineScript.Script.Instance
import LineScript.Store
import LineScript.Text.Quoted

/-!
# The scheduler

Which instances are running, and which batches still wait for a member. An instance is current
while its name is registered with its generation: one that was stopped or has ended is not, even
if a new instance has taken its name.

* `check` and `enroll` start a batch, all of it or nothing.
* `finish` removes an instance that ended by itself, `stop` removes others from outside. Those who
  leave are struck first, the new list is told, and then their batches are counted down.

Every operation that changes the set says so in exactly one message.
-/

namespace LineScript

/-- Why a batch does not start. -/
inductive StartError where
  | selfReference (name : String)
  | duplicate (name : String)
  | alreadyActive (name : String)
  | unknownScript (name : String)
  | noDriver
  | store (error : StoreError)
  deriving DecidableEq

def StartError.message : StartError → String
  | .selfReference _ => "A script file cannot run itself."
  | .duplicate name => "Cannot run the same file more than once: " ++ name
  | .alreadyActive name => "Script is already running: " ++ name
  | .unknownScript name => "Invalid script: " ++ name
  | .noDriver => "Scripts need a running tokio runtime"
  | .store error => error.message

/-- Which instances to stop. -/
inductive StopTarget where
  | named (name : String)
  | all
  deriving DecidableEq

/-- The word `all` means every instance, any other is a name. -/
def StopTarget.ofWord (word : String) : StopTarget :=
  if word = "all" then .all else .named word

/-- The registration of a running instance. -/
structure Active where
  name : String
  generation : Nat
  batch : Nat
  deriving DecidableEq

/-- The registration of an instance while it runs. -/
def Instance.entry (i : Instance) : Active :=
  ⟨i.name, i.generation, i.batch⟩

/-- A batch with members still running. -/
structure Batch where
  id : Nat
  remaining : Nat
  deriving DecidableEq

structure Scheduler where
  /-- In the order in which they started. -/
  active : List Active := []
  batches : List Batch := []
  lastBatch : Nat := 0
  nextGeneration : Nat := 1
  deriving DecidableEq

namespace Scheduler

def names (s : Scheduler) : List String :=
  s.active.map (·.name)

def isIdle (s : Scheduler) : Bool :=
  s.active.isEmpty

def isActive (s : Scheduler) (name : String) : Bool :=
  s.active.any (·.name == name)

/-- The name is registered with this very generation. -/
def isCurrent (s : Scheduler) (name : String) (generation : Nat) : Bool :=
  match s.active.find? (·.name == name) with
  | some entry => entry.generation == generation
  | none => false

/-- The batch was started and waits for no member. -/
def isComplete (s : Scheduler) (batch : Nat) : Bool :=
  1 ≤ batch && batch ≤ s.lastBatch && !s.batches.any (·.id == batch)

/-- The message that tells the running scripts. -/
def announcement (s : Scheduler) : Message :=
  .scripts s.names

/-- The first name that occurs earlier in the list. -/
def firstRepeated? (seen : List String) : List String → Option String
  | [] => none
  | name :: rest => if seen.contains name then some name else firstRepeated? (name :: seen) rest

/-- What can be said against a batch before anything is loaded: it names the script that starts
it, a script twice, or one that is running, in this order. -/
def check (s : Scheduler) (invoker : Option String) (names : List String) :
    Except StartError Unit :=
  match invoker.filter names.contains with
  | some name => .error (.selfReference name)
  | none =>
    match firstRepeated? [] names with
    | some name => .error (.duplicate name)
    | none =>
      match names.find? s.isActive with
      | some name => .error (.alreadyActive name)
      | none => .ok ()

/-- Register an entry, in the place of one with the same name or at the end. -/
def register (entry : Active) : List Active → List Active
  | [] => [entry]
  | other :: rest =>
    if other.name = entry.name then entry :: rest else other :: register entry rest

/-- A batch that has started. -/
structure Enrolment where
  scheduler : Scheduler
  batch : Nat
  names : List String
  instances : List Instance
  messages : List Message

/-- Register a batch of scripts with their texts. It is refused if one of them is running. A
batch of none is complete at once and changes no more than the count of batches. -/
def enroll (s : Scheduler) (scripts : List (String × String)) : Except StartError Enrolment :=
  let names := scripts.map Prod.fst
  match names.find? s.isActive with
  | some name => .error (.alreadyActive name)
  | none =>
    let id := s.lastBatch + 1
    if scripts.isEmpty then
      .ok { scheduler := { s with lastBatch := id }, batch := id, names, instances := [],
            messages := [] }
    else
      let instances := scripts.mapIdx fun i script =>
        Instance.ofText script.1 script.2 (s.nextGeneration + i) id
      let entries := instances.map Instance.entry
      let next : Scheduler :=
        { active := entries.foldl (fun active entry => register entry active) s.active
          batches := s.batches ++ [⟨id, scripts.length⟩]
          lastBatch := id
          nextGeneration := s.nextGeneration + scripts.length }
      .ok { scheduler := next, batch := id, names, instances, messages := [next.announcement] }

/-- A member of the batch has ended. With the last one the batch is complete. -/
def memberEnded (batches : List Batch) (batch : Nat) : List Batch :=
  batches.filterMap fun b =>
    if b.id = batch then
      if b.remaining ≤ 1 then none else some { b with remaining := b.remaining - 1 }
    else some b

/-- Entries leave the active set. -/
def strike (s : Scheduler) (gone : List Active) : Scheduler :=
  { s with active := s.active.filter fun entry => !gone.any (·.name == entry.name) }

/-- The batches of entries that have left are told, one after the other. -/
def countDown (s : Scheduler) (told : List Active) : Scheduler :=
  { s with batches := told.foldl (fun batches entry => memberEnded batches entry.batch) s.batches }

/-- Remove an instance that ended by itself, unless it is not current any more. -/
def finish (s : Scheduler) (ended : Instance) : Scheduler × List Message :=
  if s.isCurrent ended.name ended.generation then
    let struck := s.strike [ended.entry]
    (struck.countDown [ended.entry], [struck.announcement])
  else
    (s, [])

/-- The entries that a target means. -/
def targeted (s : Scheduler) : StopTarget → List Active
  | .all => s.active
  | .named name => s.active.filter (·.name == name)

/-- What a stop did. -/
structure Stopped where
  scheduler : Scheduler
  names : List String
  messages : List Message

/-- Remove instances from outside. -/
def stop (s : Scheduler) (target : StopTarget) : Stopped :=
  let ended := s.targeted target
  if ended.isEmpty then
    { scheduler := s, names := [], messages := [] }
  else
    let struck := s.strike ended
    { scheduler := struck.countDown ended
      names := ended.map (·.name)
      messages := [struck.announcement] }

/-- The state for a person to look at. -/
def describe (s : Scheduler) : String :=
  "ScriptScheduler \x7b active: " ++ Text.quotedList s.names ++ " \x7d"

end Scheduler

end LineScript
