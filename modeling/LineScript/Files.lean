/-!
# Files

A picture of the part of a file system that a program can reach: the places where something
stands, and what stands there. A path is followed name by name, and every name on the way has to
lead through a folder; `.` and empty names stay where they are, `..` goes up.
-/

namespace LineScript

/-- A file with its text, if it is text, or a folder. -/
inductive FileNode where
  | file (text : Option String)
  | folder

/-- Where something stands: the names from the root, or from the working directory. A place
above the working directory starts with `..`. -/
structure Place where
  isAbsolute : Bool
  path : List String
  deriving DecidableEq

namespace Place

def workingDirectory : Place := ⟨false, []⟩

def root : Place := ⟨true, []⟩

/-- The folder that holds a place. Nothing is above the root. -/
def parent (p : Place) : Place :=
  match p.path.getLast? with
  | none => if p.isAbsolute then p else { p with path := [".."] }
  | some ".." => { p with path := p.path ++ [".."] }
  | some _ => { p with path := p.path.dropLast }

/-- Where a name leads. -/
def step (p : Place) (name : String) : Place :=
  match name with
  | "" => p
  | "." => p
  | ".." => p.parent
  | name => { p with path := p.path ++ [name] }

/-- Folders that exist in any case: the root, the working directory and those above it. -/
def isGiven (p : Place) : Bool :=
  if p.isAbsolute then p.path.isEmpty else p.path.all (· == "..")

/-- The first place is the second one or above it. -/
def isAbove (p q : Place) : Bool :=
  p.isAbsolute == q.isAbsolute && p.path.isPrefixOf q.path

end Place

structure Files where
  /-- The folders on the way to a listed place exist without being listed. -/
  nodes : List (Place × FileNode) := []

namespace Files

/-- A folder exists at the place. -/
def isFolder (f : Files) (p : Place) : Bool :=
  p.isGiven || f.nodes.any fun node =>
    match node.2 with
    | .folder => p.isAbove node.1
    | .file _ => p.isAbove node.1 && p != node.1

/-- Follow names through folders. -/
def follow? (f : Files) (p : Place) : List String → Option Place
  | [] => some p
  | name :: rest => if f.isFolder p then f.follow? (p.step name) rest else none

/-- The names of a path text. -/
def segments (path : String) : List String :=
  (path.toList.splitOn '/').map String.ofList

/-- Where a path leads. The empty path leads nowhere. -/
def place? (f : Files) (path : String) : Option Place :=
  if path = "" then none
  else if path.toList.head? = some '/' then f.follow? Place.root (segments path)
  else f.follow? Place.workingDirectory (segments path)

/-- The text of the file at a place; `some none` for a file that is not text. -/
def read? (f : Files) (p : Place) : Option (Option String) :=
  match f.nodes.lookup p with
  | some (.file text) => some text
  | _ => none

/-- The names of the files that stand directly in a folder. -/
def filesIn (f : Files) (p : Place) : List String :=
  f.nodes.filterMap fun node =>
    match node.2 with
    | .file _ =>
      if node.1.isAbsolute == p.isAbsolute && node.1.path.dropLast == p.path then
        node.1.path.getLast?
      else none
    | .folder => none

end Files

end LineScript
