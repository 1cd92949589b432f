import LineScript.Value

/-!
# Scopes

A scope binds names to values. A name is not empty and does not start with a digit, and a bound
name keeps its kind: an assignment that breaks one of these rules is refused and changes nothing.
-/

namespace LineScript

/-- Why an assignment is refused. -/
inductive AssignError where
  | emptyName
  | leadingDigit
  | kindMismatch (name : String) (existing attempted : Kind)
  deriving DecidableEq

def AssignError.message : AssignError → String
  | .emptyName => "Variable names cannot be empty."
  | .leadingDigit => "Variable names cannot start with numbers."
  | .kindMismatch .. => "Variable already exists with a different type."

/-- A name is not empty and does not start with an ASCII digit. -/
def checkName (name : String) : Except AssignError Unit :=
  match name.toList with
  | [] => .error .emptyName
  | c :: _ => if c.isDigit then .error .leadingDigit else .ok ()

structure Scope where
  bindings : Bindings Value := {}

namespace Scope

def get? (s : Scope) (name : String) : Option Value :=
  s.bindings.get? name

def contains (s : Scope) (name : String) : Bool :=
  s.bindings.contains name

/-- Set a variable, new or of the same kind as before. -/
def assign (s : Scope) (name : String) (value : Value) : Except AssignError Scope := do
  checkName name
  match s.get? name with
  | some existing =>
    if existing.kind = value.kind then
      .ok ⟨s.bindings.insert name value⟩
    else
      .error (.kindMismatch name existing.kind value.kind)
  | none => .ok ⟨s.bindings.insert name value⟩

def erase (s : Scope) (name : String) : Scope :=
  ⟨s.bindings.erase name⟩

def names (s : Scope) : List String :=
  s.bindings.names

/-- All variables by ascending name. -/
def all (s : Scope) : List (String × Value) :=
  s.bindings.sorted

def size (s : Scope) : Nat :=
  s.bindings.size

end Scope

/-- The variable that a line sees: its own scope, if it has one, hides the global one. -/
def Scope.visible? (locals : Option Scope) (globals : Scope) (name : String) : Option Value :=
  match locals.bind (·.get? name) with
  | some value => some value
  | none => globals.get? name

/-- The text that a reference stands for; a visible variable of another kind has none. -/
def Scope.visibleText? (locals : Option Scope) (globals : Scope) (name : String) :
    Option String :=
  (Scope.visible? locals globals name).bind Value.text?

end LineScript
