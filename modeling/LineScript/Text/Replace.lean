/-!
# Replacing a text inside another

Occurrences are found from left to right and do not overlap. What was put in is not searched
again.
-/

namespace LineScript.Text

/-- The first occurrence of `pattern` becomes `new`. -/
def replaceFirstIn (pattern new : List Char) : List Char → List Char
  | [] => if pattern.isEmpty then new else []
  | c :: rest =>
    if pattern.isPrefixOf (c :: rest) then
      new ++ (c :: rest).drop pattern.length
    else
      c :: replaceFirstIn pattern new rest

/-- Every occurrence of `pattern` becomes `new`, where the first `skip` characters belong to an
occurrence that has been replaced already. -/
def replaceAllIn (pattern new : List Char) : Nat → List Char → List Char
  | _, [] => []
  | skip + 1, _ :: rest => replaceAllIn pattern new skip rest
  | 0, c :: rest =>
    if pattern.isPrefixOf (c :: rest) then
      new ++ replaceAllIn pattern new (pattern.length - 1) rest
    else
      c :: replaceAllIn pattern new 0 rest

/-- Replace the leftmost occurrence of a pattern that is not empty. -/
def replaceFirst (pattern new text : String) : String :=
  String.ofList (replaceFirstIn pattern.toList new.toList text.toList)

/-- Replace all occurrences of a pattern that is not empty. -/
def replaceAll (pattern new text : String) : String :=
  String.ofList (replaceAllIn pattern.toList new.toList 0 text.toList)

end LineScript.Text
