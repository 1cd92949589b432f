/-!
# Entropy

Random numbers, from wherever they come. All the words that will ever be drawn are there from the
start, and a draw takes the next one. Nothing is known of the words, so what holds of a line, a
script or a kernel holds for any of them; who runs the program has to find some.
-/

namespace LineScript

structure Entropy where
  /-- The words, each by the number of draws before it. They count up if nothing else is said. -/
  word : Nat → Nat := id
  /-- The draws so far. -/
  drawn : Nat := 0

namespace Entropy

/-- A number below the bound, if the bound is not zero, and what is left for the next draw. -/
def draw (e : Entropy) (bound : Nat) : Nat × Entropy :=
  (e.word e.drawn % bound, { e with drawn := e.drawn + 1 })

end Entropy

end LineScript
