import LineScript.Number.Elementary

/-!
# Functions by name

The functions of one number that scripts can call, with the names they go by.
-/

namespace LineScript

inductive MathFunction where
  | abs | floor | round | ceil | log | cos | sin | tan | asin | acos | atan | asinh | acosh | atanh
  | cbrt | trunc | sign | sqrt | log2 | log10 | fround | exp | clz32
  deriving DecidableEq

namespace MathFunction

/-- All functions with their names, in the order in which they are listed. -/
def table : List (String × MathFunction) :=
  [("abs", .abs), ("floor", .floor), ("round", .round), ("ceil", .ceil), ("log", .log),
   ("cos", .cos), ("sin", .sin), ("tan", .tan), ("asin", .asin), ("acos", .acos),
   ("atan", .atan), ("asinh", .asinh), ("acosh", .acosh), ("atanh", .atanh), ("cbrt", .cbrt),
   ("trunc", .trunc), ("sign", .sign), ("sqrt", .sqrt), ("log2", .log2), ("log10", .log10),
   ("fround", .fround), ("exp", .exp), ("clz32", .clz32)]

def names : List String :=
  table.map Prod.fst

def ofName? (name : String) : Option MathFunction :=
  table.lookup name

def apply : MathFunction → Binary64 → Binary64
  | .abs => Binary64.abs
  | .floor => Binary64.floor
  | .round => Binary64.round
  | .ceil => Binary64.ceil
  | .log => Binary64.ln
  | .cos => Binary64.cos
  | .sin => Binary64.sin
  | .tan => Binary64.tan
  | .asin => Binary64.asin
  | .acos => Binary64.acos
  | .atan => Binary64.atan
  | .asinh => Binary64.asinh
  | .acosh => Binary64.acosh
  | .atanh => Binary64.atanh
  | .cbrt => Binary64.cbrt
  | .trunc => Binary64.trunc
  | .sign => Binary64.sign
  | .sqrt => Binary64.sqrt
  | .log2 => Binary64.log2
  | .log10 => Binary64.log10
  | .fround => Binary64.single
  | .exp => Binary64.exp
  | .clz32 => Binary64.leadingZeros

end MathFunction

end LineScript
