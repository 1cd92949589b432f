import LineScript.Number.Binary64

/-!
# Durations

A span of time is a whole number of nanoseconds below `2 ^ 64` seconds.
-/

namespace LineScript

structure Duration where
  nanoseconds : Nat
  deriving DecidableEq

namespace Duration

def perSecond : Nat := 1000000000

def perMillisecond : Nat := 1000000

/-- The nearest whole number of nanoseconds, half to even. There is none for a negative number
of seconds or for `2 ^ 64` seconds and more. -/
def ofSeconds? : Binary64 → Option Duration
  | .finite negative units _ =>
    if negative && units != 0 then none
    else
      let n := Number.roundDiv (units * perSecond) Binary64.one
      if n < UInt64.size * perSecond then some ⟨n⟩ else none
  | _ => none

/-- Whole milliseconds, rounded up: the grain of timers. -/
def milliseconds (d : Duration) : Nat :=
  (d.nanoseconds + (perMillisecond - 1)) / perMillisecond

end Duration

end LineScript
