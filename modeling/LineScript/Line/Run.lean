import LineScript.Workspace

/-!
# Runs

A run is what became of something that works on the workspace: it is over, or it waits and says
what it waits for and how it goes on. Between the two the workspace is in other hands, so it
goes on with the workspace that it is given then.
-/

namespace LineScript

/-- What a suspended line waits for. -/
inductive Wait where
  | time (deadline : Nat)
  /-- All members of a batch have ended. -/
  | batch (id : Nat)
  /-- A line of input for a ticket. -/
  | input (ticket : Nat)
  deriving DecidableEq

namespace Wait

/-- There is nothing to wait for any more. -/
def isOver (ws : Workspace) : Wait → Bool
  | .time deadline => decide (deadline ≤ ws.now)
  | .batch id => ws.scheduler.isComplete id
  | .input ticket => ws.canRead ticket

def isForInput : Wait → Bool
  | .input _ => true
  | _ => false

/-- A turn would be of use: the wait is over, or there is a place to take. -/
def callsFor (ws : Workspace) (wait : Wait) : Bool :=
  wait.isOver ws ||
    match wait with
    | .input ticket => ws.isFirst ticket && !ws.seated
    | _ => false

/-- A turn while the wait goes on. -/
def remain (ws : Workspace) : Wait → Workspace
  | .input ticket => ws.takePlace ticket
  | _ => ws

/-- The time at which the wait is over, if it is known. -/
def deadline? : Wait → Option Nat
  | .time deadline => some deadline
  | _ => none

/-- Stop waiting. -/
def abandon (ws : Workspace) : Wait → Workspace
  | .input ticket => ws.leaveQueue ticket
  | _ => ws

end Wait

inductive Run (α : Type) where
  | done (value : α) (workspace : Workspace)
  | await (wait : Wait) (workspace : Workspace) (next : Workspace → Run α)
  /-- Lines are nested without end. -/
  | endless

namespace Run

variable {α β : Type}

/-- One run after the other. -/
def bind : Run α → (α → Workspace → Run β) → Run β
  | .done value ws, f => f value ws
  | .await wait ws next, f => .await wait ws fun ws => (next ws).bind f
  | .endless, _ => .endless

/-- Wait, but not for what is there already. -/
def waitFor (wait : Wait) (ws : Workspace) (next : Workspace → Run α) : Run α :=
  if wait.isOver ws then next ws else .await wait ws next

end Run

end LineScript
