import LineScript.Bindings
import LineScript.Files

/-!
# Stores

Where the texts of scripts come from: memory, or the files of one folder that have a given
extension.
-/

namespace LineScript

/-- Why a store cannot answer. -/
inductive StoreError where
  | invalidName (name : String)
  | unreadable (name : String) (reason : String)
  deriving DecidableEq

def StoreError.message : StoreError → String
  | .invalidName name => "invalid script name: " ++ name
  | .unreadable name reason => "failed to read script " ++ name ++ ": " ++ reason

/-- A folder of files, each holding the script it is named for. -/
structure ScriptFolder where
  files : Files
  root : String
  extension : String

namespace ScriptFolder

/-- A script's name is one path segment. -/
def isValidName (name : String) : Bool :=
  !(name = "" || name.toList.contains '/' || name.toList.contains '\\' || name = "." ||
    name = "..")

def fileName (s : ScriptFolder) (name : String) : String :=
  name ++ "." ++ s.extension

/-- What the file of a script holds; `some none` if that is no text. -/
def read? (s : ScriptFolder) (name : String) : Option (Option String) := do
  let root ← s.files.place? s.root
  s.files.read? (← s.files.follow? root (Files.segments (s.fileName name)))

/-- The script's text, or nothing if there is no such file. -/
def load (s : ScriptFolder) (name : String) : Except StoreError (Option String) :=
  if !isValidName name then .error (.invalidName name)
  else
    match s.read? name with
    | none => .ok none
    | some (some text) => .ok (some text)
    | some none => .error (.unreadable name "stream did not contain valid UTF-8")

/-- A file name cut at its last dot: the stem and the extension. A dot that comes first is part
of the stem. -/
def splitExtension? (fileName : List Char) : Option (List Char × List Char) :=
  let back := fileName.reverse
  let extension := (back.takeWhile (· != '.')).reverse
  match back.dropWhile (· != '.') with
  | [] => none
  | _ :: stem => if stem.isEmpty then none else some (stem.reverse, extension)

/-- The script that a file holds. -/
def scriptOf? (extension : String) (fileName : String) : Option String :=
  match splitExtension? fileName.toList with
  | some (stem, found) =>
    if String.ofList found = extension then some (String.ofList stem) else none
  | none => none

/-- The scripts of the folder, ascending. -/
def names (s : ScriptFolder) : Except StoreError (List String) :=
  match s.files.place? s.root with
  | some place =>
    if s.files.isFolder place then
      .ok (((s.files.filesIn place).filterMap (scriptOf? s.extension)).mergeSort
        fun a b => decide (a ≤ b))
    else
      .error (.unreadable s.root "No such file or directory (os error 2)")
  | none => .error (.unreadable s.root "No such file or directory (os error 2)")

end ScriptFolder

inductive Store where
  | memory (scripts : Bindings String)
  | folder (folder : ScriptFolder)

namespace Store

def empty : Store := .memory {}

/-- The text of a script, or nothing if there is none of that name. -/
def load : Store → String → Except StoreError (Option String)
  | .memory scripts, name => .ok (scripts.get? name)
  | .folder f, name => f.load name

/-- The known scripts, ascending. -/
def names : Store → Except StoreError (List String)
  | .memory scripts => .ok scripts.names
  | .folder f => f.names

/-- Keep a script in memory. A folder is not written to. -/
def insert : Store → String → String → Store
  | .memory scripts, name, text => .memory (scripts.insert name text)
  | .folder f, _, _ => .folder f

end Store

end LineScript
