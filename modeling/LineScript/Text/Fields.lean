/-!
# Fields, lines and carriage returns

A line is cut into fields at every single space, so that two spaces in a row leave an empty
field between them and joining the fields gives the line back. A source text is cut into lines
at every line feed, with or without a carriage return before it.
-/

namespace LineScript.Text

/-- The pieces between single spaces; two spaces in a row enclose an empty piece. -/
def fields (s : String) : List String :=
  (s.toList.splitOn ' ').map String.ofList

/-- The fields put back together with single spaces. -/
def unfields (parts : List String) : String :=
  String.intercalate " " parts

/-- The lines of a text. A line ends at `\n` or `\r\n`; the last one may lack its ending, and an
ending at the very end of the text starts no further line. -/
def splitLines : List Char → List (List Char)
  | [] => []
  | '\n' :: rest => [] :: splitLines rest
  | '\r' :: '\n' :: rest => [] :: splitLines rest
  | c :: rest =>
    match splitLines rest with
    | [] => [[c]]
    | line :: lines => (c :: line) :: lines

/-- The lines of a script's text. -/
def sourceLines (text : String) : List String :=
  (splitLines text.toList).map String.ofList

/-- The text without its carriage returns. -/
def dropReturns (s : String) : String :=
  String.ofList (s.toList.filter (· != '\r'))

/-- The text without the line feeds and carriage returns at its end. -/
def dropLineEnding (s : String) : String :=
  String.ofList (s.toList.reverse.dropWhile fun c => c == '\n' || c == '\r').reverse

/-- The pieces of a stream of text as a line reader sees them: each keeps its line feed, and a
last piece without one counts if it is not empty. -/
def splitKeepingEnds : List Char → List (List Char)
  | [] => []
  | '\n' :: rest => ['\n'] :: splitKeepingEnds rest
  | c :: rest =>
    match splitKeepingEnds rest with
    | [] => [[c]]
    | line :: lines =>
      (c :: line) :: lines

@[simp] theorem toList_dropReturns (s : String) :
    (dropReturns s).toList = s.toList.filter (· != '\r') := by
  simp [dropReturns]

end LineScript.Text
