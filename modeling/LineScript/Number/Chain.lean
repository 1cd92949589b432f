import LineScript.Number.Elementary

/-!
# Chains of operators

A chain is `n op n op n …`. Powers bind tightest and group from the right; products, sums, shifts
and exclusive or follow, each grouping from the left. `climb` evaluates a chain in one pass for
any meaning of the operators.
-/

namespace LineScript

inductive Operator where
  | pow | mul | div | rem | add | sub | shiftLeft | shiftRight | xor
  deriving DecidableEq

namespace Operator

def ofToken? : String → Option Operator
  | "**" => some .pow
  | "*" => some .mul
  | "/" => some .div
  | "%" => some .rem
  | "+" => some .add
  | "-" => some .sub
  | "<<" => some .shiftLeft
  | ">>" => some .shiftRight
  | "^" => some .xor
  | _ => none

/-- How tightly the operator binds. -/
def precedence : Operator → Nat
  | .pow => 5
  | .mul | .div | .rem => 4
  | .add | .sub => 3
  | .shiftLeft | .shiftRight => 2
  | .xor => 1

/-- The loosest operator that may still belong to the right operand. -/
def rightMinimum (op : Operator) : Nat :=
  if op = .pow then op.precedence else op.precedence + 1

def apply : Operator → Binary64 → Binary64 → Binary64
  | .pow => Binary64.pow
  | .mul => Binary64.mul
  | .div => Binary64.div
  | .rem => Binary64.rem
  | .add => Binary64.add
  | .sub => Binary64.sub
  | .shiftLeft => Binary64.shiftLeft
  | .shiftRight => Binary64.shiftRight
  | .xor => Binary64.xor

end Operator

/-- Why a chain has no value. -/
inductive ChainError where
  | shape
  | unknownOperator (token : String)
  deriving DecidableEq

def ChainError.message : ChainError → String
  | .shape => "expected one more number than operators"
  | .unknownOperator token => "unknown operator: " ++ token

namespace Chain

variable {α : Type}

/-- Precedence climbing: fold operators that bind at least as tightly as `least` into `left`.
What is left of the chain is returned with the value, and it is no longer than the chain. -/
def climb (apply : Operator → α → α → α) (least : Nat) (left : α)
    (rest : List (Operator × α)) :
    α × { r : List (Operator × α) // r.length ≤ rest.length } :=
  match rest with
  | [] => (left, ⟨[], by simp⟩)
  | (op, x) :: tail =>
    if op.precedence < least then
      (left, ⟨(op, x) :: tail, Nat.le_refl _⟩)
    else
      match climb apply op.rightMinimum x tail with
      | (right, ⟨after, h⟩) =>
        match climb apply least (apply op left right) after with
        | (value, ⟨left, h'⟩) =>
          (value, ⟨left, Nat.le_succ_of_le (Nat.le_trans h' h)⟩)
termination_by rest.length
decreasing_by
  · simp
  · exact Nat.lt_succ_of_le h

/-- The value of a chain, for any meaning of the operators. There is one operand more than
there are operators. -/
def evaluateWith (apply : Operator → α → α → α) (operands : List α)
    (operators : List Operator) : Except ChainError α :=
  match operands with
  | [] => .error .shape
  | first :: others =>
    if others.length = operators.length then
      .ok (climb apply 0 first (operators.zip others)).1
    else
      .error .shape

/-- The value of a chain of numbers. -/
def evaluate (operands : List Binary64) (operators : List Operator) :
    Except ChainError Binary64 :=
  evaluateWith Operator.apply operands operators

/-- Read the operators first, in order, then evaluate. -/
def evaluateTokens (operands : List Binary64) (tokens : List String) :
    Except ChainError Binary64 := do
  let operators ← tokens.mapM fun token =>
    match Operator.ofToken? token with
    | some op => .ok op
    | none => .error (.unknownOperator token)
  evaluate operands operators

end Chain

end LineScript
