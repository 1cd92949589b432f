import LineScript.Bindings

/-!
# Values

A variable holds a text, a list of texts, or an object that maps keys to texts. The kind is fixed
when the variable is first set.
-/

namespace LineScript

inductive Value where
  | text (text : String)
  | list (items : List String)
  | object (fields : Bindings String)

inductive Kind where
  | text | list | object
  deriving DecidableEq

namespace Kind

/-- The name that scripts see. -/
def name : Kind → String
  | .text => "string"
  | .list => "list"
  | .object => "object"

end Kind

namespace Value

def kind : Value → Kind
  | .text _ => .text
  | .list _ => .list
  | .object _ => .object

/-- The text of a text value. -/
def text? : Value → Option String
  | .text s => some s
  | _ => none

end Value

end LineScript
