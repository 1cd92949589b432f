import LineScript.Command.Builtin
import LineScript.Entropy
import LineScript.Template

/-!
# Rehearsals

A stage for a single command. Variables, output and the device are as they would be; evaluating
a line, sleeping, running scripts and reading input are noted down and not done. `perform` is a
second meaning of actions, beside the one that lines have in a kernel.
-/

namespace LineScript

structure Rehearsal where
  /-- The script that the command stands in; none for a bare line. -/
  inst : Option String := none
  source : List String := []
  counter : Nat := 0
  locals : Scope := {}
  globals : Scope := {}
  /-- The lines that can be read. -/
  inputs : List String := []
  /-- What the next nested line responds. -/
  nextCapture : Option String := none
  typingSpeed : Option Binary64 := none
  registry : Registry := Registry.standard
  device : Device := Device.recording
  entropy : Entropy := {}
  output : List Message := []
  responses : List String := []
  jump : Option Nat := none
  slept : List Duration := []
  started : List (List String) := []
  /-- The nested lines, and whether they were to be quiet. -/
  evaluated : List (String × Bool) := []

namespace Rehearsal

def say (r : Rehearsal) (m : Message) : Rehearsal :=
  { r with output := r.output ++ [m] }

/-- The variables that the line has of its own. -/
def ownScope (r : Rehearsal) : Option Scope :=
  r.inst.map fun _ => r.locals

def assignGlobal (r : Rehearsal) (name : String) (value : Value) :
    Except AssignError Unit × Rehearsal :=
  match r.globals.assign name value with
  | .ok globals => (.ok (), { r with globals })
  | .error e => (.error e, r)

def assign (r : Rehearsal) (name : String) (value : Value) :
    Except AssignError Unit × Rehearsal :=
  match r.inst with
  | none => r.assignGlobal name value
  | some _ =>
    match r.locals.assign name value with
    | .ok locals => (.ok (), { r with locals })
    | .error e => (.error e, r)

def update (r : Rehearsal) (name : String) (value : Value) :
    Except AssignError Unit × Rehearsal :=
  let isLocal := (r.ownScope.map (·.contains name)).getD false
  if !isLocal && r.globals.contains name then r.assignGlobal name value else r.assign name value

def remove (r : Rehearsal) (name : String) : Rehearsal :=
  match r.inst with
  | none => { r with globals := r.globals.erase name }
  | some _ => { r with locals := r.locals.erase name }

def goTo (r : Rehearsal) (index : Nat) : Bool × Rehearsal :=
  if r.inst.isSome && index < r.source.length then (true, { r with jump := some index })
  else (false, r)

/-- The answer to a request, and what it changes. -/
def answer (r : Rehearsal) : (request : Request) → request.Reply × Rehearsal
  | .write text style => ((), r.say (.output text style))
  | .respond text style =>
    ((), { r.say (.output (text ++ "\n") style) with responses := r.responses ++ [text] })
  | .report text => ((), r.say (.error (text ++ "\n") Style.plain))
  | .clearScreen => ((), r.say .clear)
  | .jump index => r.goTo index
  | .currentIndex => (r.counter, r)
  | .source => (r.source, r)
  | .isPseudo => (false, r)
  | .instanceName => (r.inst, r)
  | .expand template =>
    (Template.expand (Scope.visibleText? r.ownScope r.globals) template, r)
  | .variable name => (Scope.visible? r.ownScope r.globals name, r)
  | .assign name value => r.assign name value
  | .update name value => r.update name value
  | .remove name => ((), r.remove name)
  | .assignGlobal name value => r.assignGlobal name value
  | .removeGlobal name => ((), { r with globals := r.globals.erase name })
  | .schemas => (r.registry.schemas, r)
  | .schema name => (r.registry.schema? name, r)
  | .act act => ((r.device.perform act).1, { r with device := (r.device.perform act).2 })
  | .position => (r.device.position, r)
  | .pixel point => (r.device.pixel point, r)
  | .screenSize => (r.device.screenSize, r)
  | .typingSpeed => (r.typingSpeed, r)
  | .setTypingSpeed speed => ((), { r with typingSpeed := speed })
  | .draw bound => ((r.entropy.draw bound).1, { r with entropy := (r.entropy.draw bound).2 })

/-- Carry out an action on the stage. -/
def perform {α : Type} : Action α → Rehearsal → α × Rehearsal
  | .done value, r => (value, r)
  | .ask request next, r => perform (next (r.answer request).1) (r.answer request).2
  | .evaluate line quiet next, r =>
    perform (next { captured := r.nextCapture.getD "" })
      { r with evaluated := r.evaluated ++ [(line, quiet)], nextCapture := none }
  | .sleep duration next, r => perform next { r with slept := r.slept ++ [duration] }
  | .runScripts names next, r =>
    perform (next (.ok ())) { r with started := r.started ++ [names] }
  | .readInput next, r => perform (next r.inputs.head?) { r with inputs := r.inputs.tail }

/-- Run a command with the given arguments. -/
def run (r : Rehearsal) (command : Command) (args : List String) :
    Except Fault Unit × Rehearsal :=
  perform (command.run args).run r

/-- Forget what was noted down, for the next command. -/
def clearNotes (r : Rehearsal) : Rehearsal :=
  { r with
    output := []
    responses := []
    jump := none
    slept := []
    started := []
    evaluated := []
    device := { r.device with record := #[] } }

end Rehearsal

end LineScript
