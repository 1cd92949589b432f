/-!
# Templates

A text with `$` references. `parse` cuts it, from left to right, into literal runs and
references; `Piece.fill` says what each piece stands for. What a reference stands for is never
searched for further references.

| piece          | stands for                              |
|----------------|-----------------------------------------|
| `$$n`, `$$s`   | a line feed, a space                    |
| `$$`           | `$`                                     |
| `$_PI`, `$_E`  | the two constants                       |
| `$_`           | nothing                                 |
| `$name`        | the variable's text, or itself          |
| `$` alone      | itself                                  |
-/

namespace LineScript.Template

/-- A literal run or a reference. -/
inductive Piece where
  | literal (run : List Char)
  | newline
  | space
  | dollar
  | pi
  | euler
  | nothing
  | name (letters : List Char)
  | lone
  deriving DecidableEq

def isLetter (c : Char) : Bool :=
  c.isAlpha

def isNameChar (c : Char) : Bool :=
  c.isAlphanum

/-- The reference that starts with a `$`, given what follows the sign, and the rest. -/
def reference : List Char → Piece × List Char
  | '$' :: 'n' :: rest => (.newline, rest)
  | '$' :: 's' :: rest => (.space, rest)
  | '$' :: rest => (.dollar, rest)
  | '_' :: 'P' :: 'I' :: rest => (.pi, rest)
  | '_' :: 'E' :: rest => (.euler, rest)
  | '_' :: rest => (.nothing, rest)
  | c :: rest =>
    if isLetter c then (.name (c :: rest.takeWhile isNameChar), rest.dropWhile isNameChar)
    else (.lone, c :: rest)
  | [] => (.lone, [])

theorem length_reference_le (cs : List Char) : (reference cs).2.length ≤ cs.length := by
  unfold reference
  split <;> simp only [List.length_cons] <;> try omega
  · rename_i c rest _ _ _ _ _ _
    split
    · have := (List.dropWhile_sublist isNameChar (l := rest)).length_le
      simp only []
      omega
    · simp

/-- The pieces of a text, from left to right. -/
def parse : List Char → List Piece
  | [] => []
  | c :: rest =>
    if c = '$' then
      (reference rest).1 :: parse (reference rest).2
    else
      .literal (c :: rest.takeWhile (· != '$')) :: parse (rest.dropWhile (· != '$'))
termination_by cs => cs.length
decreasing_by
  · have := length_reference_le rest
    simp only [List.length_cons]
    omega
  · have := (List.dropWhile_sublist (· != '$') (l := rest)).length_le
    simp only [List.length_cons]
    omega

/-- What a piece stands for. -/
def Piece.fill (lookup : String → Option String) : Piece → List Char
  | .literal run => run
  | .newline => ['\n']
  | .space => [' ']
  | .dollar => ['$']
  | .pi => "3.141592653589793".toList
  | .euler => "2.718281828459045".toList
  | .nothing => []
  | .name letters =>
    match lookup (String.ofList letters) with
    | some value => value.toList
    | none => '$' :: letters
  | .lone => ['$']

/-- The text with every reference replaced by what it stands for. -/
def expand (lookup : String → Option String) (text : String) : String :=
  String.ofList ((parse text.toList).flatMap (Piece.fill lookup))

end LineScript.Template
