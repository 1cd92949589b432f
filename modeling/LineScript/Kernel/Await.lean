import LineScript.Kernel

/-!
# Waiting

A host that waits for something has the first turn in each round. Then the queue is worked off,
and only with it empty a new round begins. If no job waits for the new round and the host cannot
go on either, time passes, up to the next time that somebody waits for. Who goes on then comes
after the host.
-/

namespace LineScript

/-- What a host waits for. -/
inductive Goal where
  /-- The end of a line that it gives turns itself. -/
  | line (id : Nat)
  /-- The end of a line that takes its turns in the queue. -/
  | outcome (id : Nat)
  /-- No script is running. -/
  | idle
  /-- Nothing but time. -/
  | time

namespace Goal

/-- The line is over or has been taken out. -/
def isFinished (k : Kernel) (id : Nat) : Bool :=
  match k.line? id with
  | some (.finished _) => true
  | none => true
  | _ => false

def isReached (k : Kernel) : Goal → Bool
  | .line id => isFinished k id
  | .outcome id => isFinished k id
  | .idle => k.isIdle
  | .time => false

/-- The turn of the host. -/
def poll (k : Kernel) : Goal → Kernel
  | .line id => (k.pollLine id).callReady
  | _ => k

/-- The host can do something with its turn. -/
def isReady (k : Kernel) (goal : Goal) : Bool :=
  goal.isReached k ||
    match goal with
    | .line id => k.canGoOn (.line id)
    | _ => false

end Goal

/-- How a wait ended. -/
inductive Awaited where
  | reached
  /-- The time was up. -/
  | timedOut
  /-- The rounds were used up. -/
  | unfinished
  deriving DecidableEq

namespace Kernel

/-- The next time that anybody waits for, no later than a limit. -/
def nextTime (k : Kernel) (limit : Nat) : Nat :=
  k.deadlines.foldl min limit

/-- Wait for a goal up to a time. -/
def await (goal : Goal) (limit : Nat) : Nat → Kernel → Awaited × Kernel
  | 0, k => (.unfinished, k)
  | rounds + 1, k =>
    let k := goal.poll k
    if goal.isReached k then (.reached, k)
    else if limit ≤ k.workspace.now then (.timedOut, k)
    else
      let k := k.work rounds
      if goal.isReady k || !k.resting.isEmpty then await goal limit rounds k.beginRound
      else await goal limit rounds (k.passTo (k.nextTime limit))

/-- How long and how hard a host tries. -/
structure Effort where
  /-- The longest wait, in milliseconds. -/
  patience : Nat
  /-- The most rounds of turns. -/
  rounds : Nat

/-- Run a line and wait for it; a line that takes too long is dropped. -/
def run (effort : Effort) (k : Kernel) (text : String) : Option Evaluation × Kernel :=
  let submitted := k.submit text
  let id := submitted.1
  match await (.line id) (k.workspace.now + effort.patience) effort.rounds submitted.2 with
  | (.reached, k) => k.takeLine id
  | (_, k) => (none, k.dropLine id)

/-- Cancel a line that takes its turns in the queue, and wait until it is gone. -/
def cancel (rounds : Nat) (k : Kernel) (id : Nat) : Kernel :=
  (await (.outcome id) (k.workspace.now + 1) rounds (k.cancelLine id)).2

/-- Wait for the outcome of a line that takes its turns in the queue; a line that takes too long
is cancelled. -/
def awaitLine (effort : Effort) (k : Kernel) (id : Nat) : Option Evaluation × Kernel :=
  match await (.outcome id) (k.workspace.now + effort.patience) effort.rounds k with
  | (.reached, k) => k.takeLine id
  | (_, k) => (none, k.cancel effort.rounds id)

/-- Wait for lines one after the other. -/
def awaitLines (effort : Effort) : List Nat → Kernel → List (Option Evaluation) × Kernel
  | [], k => ([], k)
  | id :: rest, k =>
    let first := k.awaitLine effort id
    let others := awaitLines effort rest first.2
    (first.1 :: others.1, others.2)

/-- Wait until no script is running. -/
def waitIdle (effort : Effort) (k : Kernel) : Bool × Kernel :=
  match await .idle (k.workspace.now + effort.patience) effort.rounds k with
  | (.reached, k) => (true, k)
  | (_, k) => (false, k)

/-- Let milliseconds pass. -/
def advance (rounds : Nat) (k : Kernel) (milliseconds : Nat) : Kernel :=
  (await .time (k.workspace.timerAfter milliseconds) rounds k).2

end Kernel

end LineScript
