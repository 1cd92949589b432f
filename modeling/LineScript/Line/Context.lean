import LineScript.Template
import LineScript.Workspace

/-!
# A line in evaluation

What belongs to one line while its command runs, and how its requests are answered. A line is
owned by an instance or is bare; a bare line works on the global variables and on the settings
of the terminal.
-/

namespace LineScript

/-- How a line is evaluated. -/
structure Mode where
  /-- On behalf of another line. -/
  pseudo : Bool := false
  /-- Without showing output. Errors are shown all the same. -/
  quiet : Bool := false
  deriving DecidableEq

structure Context where
  /-- The line as it was given. -/
  line : String
  mode : Mode := {}
  owner : Option Instance := none
  /-- What is said, nested lines included, in order. -/
  transcript : List Message := []
  /-- The responses so far. -/
  parts : List String := []
  failed : Bool := false
  jump : Option Nat := none

namespace Context

/-- Extend the last part, or start one. -/
def extendLast (text : String) : List String → List String
  | [] => [text]
  | [last] => [last ++ text]
  | part :: rest => part :: extendLast text rest

def say (ctx : Context) (m : Message) : Context :=
  { ctx with transcript := ctx.transcript ++ [m] }

/-- Show text unless the line is quiet. -/
def display (ctx : Context) (text : String) (style : Style) : Context :=
  if ctx.mode.quiet then ctx else ctx.say (.output text style)

def write (ctx : Context) (text : String) (style : Style) : Context :=
  { ctx.display text style with parts := extendLast text ctx.parts }

def respond (ctx : Context) (text : String) (style : Style) : Context :=
  { ctx.display (text ++ "\n") style with parts := ctx.parts ++ [text] }

/-- Where an error comes from: the owner and its line, from one. -/
def origin (ctx : Context) : String :=
  match ctx.owner with
  | some owner => owner.name ++ "#" ++ toString (owner.counter + 1) ++ " > "
  | none => ""

def report (ctx : Context) (color text : String) : Context :=
  { ctx.say (.error (ctx.origin ++ text ++ "\n") (Style.colored color)) with failed := true }

/-- The outcome. A line that failed goes nowhere. -/
def evaluation (ctx : Context) : Evaluation :=
  { failed := ctx.failed
    jump := if ctx.failed then none else ctx.jump
    captured := String.intercalate "\n" ctx.parts }

def locals (ctx : Context) : Option Scope :=
  ctx.owner.map (·.locals)

def source (ctx : Context) : List String :=
  match ctx.owner with
  | some owner => owner.source
  | none => [ctx.line]

/-- The line that the owner is on, from zero. -/
def currentIndex (ctx : Context) : Nat :=
  match ctx.owner with
  | some owner => owner.counter
  | none => 0

/-- Go to a line next; refused outside a script and outside its lines. -/
def goTo (ctx : Context) (index : Nat) : Bool × Context :=
  match ctx.owner with
  | some owner =>
    if index < owner.source.length then (true, { ctx with jump := some index }) else (false, ctx)
  | none => (false, ctx)

/-- Set a variable of the owner; a bare line sets a global one. -/
def assign (ctx : Context) (ws : Workspace) (name : String) (value : Value) :
    Except AssignError Unit × Context × Workspace :=
  match ctx.owner with
  | some owner =>
    match owner.locals.assign name value with
    | .ok locals => (.ok (), { ctx with owner := some { owner with locals } }, ws)
    | .error e => (.error e, ctx, ws)
  | none =>
    match ws.globals.assign name value with
    | .ok globals => (.ok (), ctx, { ws with globals })
    | .error e => (.error e, ctx, ws)

def assignGlobal (ctx : Context) (ws : Workspace) (name : String) (value : Value) :
    Except AssignError Unit × Context × Workspace :=
  match ws.globals.assign name value with
  | .ok globals => (.ok (), ctx, { ws with globals })
  | .error e => (.error e, ctx, ws)

/-- Set a variable where a line sees it; one that is nowhere becomes the owner's. -/
def update (ctx : Context) (ws : Workspace) (name : String) (value : Value) :
    Except AssignError Unit × Context × Workspace :=
  let isLocal := (ctx.locals.map (·.contains name)).getD false
  if !isLocal && ws.globals.contains name then ctx.assignGlobal ws name value
  else ctx.assign ws name value

def remove (ctx : Context) (ws : Workspace) (name : String) : Context × Workspace :=
  match ctx.owner with
  | some owner =>
    ({ ctx with owner := some { owner with locals := owner.locals.erase name } }, ws)
  | none => (ctx, { ws with globals := ws.globals.erase name })

def settings (ctx : Context) (ws : Workspace) : Settings :=
  match ctx.owner with
  | some owner => owner.settings
  | none => ws.terminal

def setSettings (ctx : Context) (ws : Workspace) (settings : Settings) : Context × Workspace :=
  match ctx.owner with
  | some owner => ({ ctx with owner := some { owner with settings } }, ws)
  | none => (ctx, { ws with terminal := settings })

/-- The answer to a request, and what it changes. -/
def answer (ctx : Context) (ws : Workspace) : (r : Request) → r.Reply × Context × Workspace
  | .write text style => ((), ctx.write text style, ws)
  | .respond text style => ((), ctx.respond text style, ws)
  | .report text => ((), ctx.report ws.config.errorColor text, ws)
  | .clearScreen => ((), ctx.say .clear, ws)
  | .jump index => ((ctx.goTo index).1, (ctx.goTo index).2, ws)
  | .currentIndex => (ctx.currentIndex, ctx, ws)
  | .source => (ctx.source, ctx, ws)
  | .isPseudo => (ctx.mode.pseudo, ctx, ws)
  | .instanceName => (ctx.owner.map (·.name), ctx, ws)
  | .expand template =>
    (Template.expand (Scope.visibleText? ctx.locals ws.globals) template, ctx, ws)
  | .variable name => (Scope.visible? ctx.locals ws.globals name, ctx, ws)
  | .assign name value => ctx.assign ws name value
  | .update name value => ctx.update ws name value
  | .remove name => ((), ctx.remove ws name)
  | .assignGlobal name value => ctx.assignGlobal ws name value
  | .removeGlobal name => ((), ctx, { ws with globals := ws.globals.erase name })
  | .schemas => (ws.registry.schemas, ctx, ws)
  | .schema name => (ws.registry.schema? name, ctx, ws)
  | .act act => ((ws.device.perform act).1, ctx, { ws with device := (ws.device.perform act).2 })
  | .position => (ws.device.position, ctx, ws)
  | .pixel point => (ws.device.pixel point, ctx, ws)
  | .screenSize => (ws.device.screenSize, ctx, ws)
  | .typingSpeed => ((ctx.settings ws).typingSpeed, ctx, ws)
  | .setTypingSpeed speed => ((), ctx.setSettings ws { typingSpeed := speed })
  | .draw bound =>
    ((ws.entropy.draw bound).1, ctx, { ws with entropy := (ws.entropy.draw bound).2 })

/-- The context after a nested line: what it said and how it ended carry over, what it
responded does not. -/
def afterNested (ctx : Context) (evaluation : Evaluation) (owner : Option Instance)
    (transcript : List Message) : Context :=
  { ctx with
    owner
    transcript
    failed := ctx.failed || evaluation.failed
    jump := if evaluation.jump.isSome then evaluation.jump else ctx.jump }

end Context

end LineScript
