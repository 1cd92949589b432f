import LineScript.Text.Ranges
import LineScript.Text.Cluster.Table

/-!
# Clusters

What a reader takes for one character may be several code points: a letter with its marks, a
syllable, a flag, a family of joined pictographs. `clusters` cuts a text into such pieces. Whether
there is a cut before a character depends on the character and on how the text before it ends,
so the text is read once from left to right. `flatten_clusters` says that nothing is lost.
-/

namespace LineScript.Text

namespace Cluster

/-- What a character is to the cuts beside it. -/
inductive Kind where
  | other
  | carriageReturn
  | lineFeed
  | control
  | extend
  | joiner
  | regional
  | prepend
  | spacing
  | leading
  | vowel
  | trailing
  /-- A syllable without a consonant at its end. -/
  | openSyllable
  | closedSyllable
  | pictograph
  | consonant
  deriving DecidableEq

def joinerChar : Char := '\u200d'

/-- A mark like any other, but it parts consonants. -/
def nonJoinerChar : Char := '\u200c'

def isSyllable (c : Char) : Bool :=
  0xac00 ≤ c.toNat && c.toNat ≤ 0xd7a3

/-- The syllables with one beginning stand in groups of 28; the first has no consonant at its
end. -/
def isOpenSyllable (c : Char) : Bool :=
  isSyllable c && (c.toNat - 0xac00) % 28 == 0

def isRegional (c : Char) : Bool :=
  0x1f1e6 ≤ c.toNat && c.toNat ≤ 0x1f1ff

def Kind.ofChar (c : Char) : Kind :=
  if c = '\r' then .carriageReturn
  else if c = '\n' then .lineFeed
  else if c = joinerChar then .joiner
  else if isRegional c then .regional
  else if isOpenSyllable c then .openSyllable
  else if isSyllable c then .closedSyllable
  else if inRanges controlRanges c then .control
  else if inRanges extendRanges c then .extend
  else if inRanges prependRanges c then .prepend
  else if inRanges spacingRanges c then .spacing
  else if inRanges leadingRanges c then .leading
  else if inRanges vowelRanges c then .vowel
  else if inRanges trailingRanges c then .trailing
  else if inRanges pictographRanges c then .pictograph
  else if inRanges consonantRanges c then .consonant
  else .other

namespace Kind

/-- It shares a cluster with nothing, except that a line feed follows a carriage return. -/
def standsAlone : Kind → Bool
  | .carriageReturn | .lineFeed | .control => true
  | _ => false

/-- It joins whatever does not stand alone. -/
def isMark : Kind → Bool
  | .extend | .joiner | .spacing => true
  | _ => false

/-- Two parts of a syllable in the order in which they make one. -/
def makesSyllable : Kind → Kind → Bool
  | .leading, .leading | .leading, .vowel | .leading, .openSyllable
  | .leading, .closedSyllable => true
  | .openSyllable, .vowel | .openSyllable, .trailing | .vowel, .vowel | .vowel, .trailing => true
  | .closedSyllable, .trailing | .trailing, .trailing => true
  | _, _ => false

end Kind

/-- A mark that may stand between linked consonants. -/
def isBetweenConsonants (c : Char) (kind : Kind) : Bool :=
  (kind = .extend || kind = .joiner) && c != nonJoinerChar

/-- How a text ends, as far as the next cut depends on it. -/
structure Ending where
  /-- The last character. -/
  last : Kind
  /-- An odd number of regional indicators. -/
  oddRegional : Bool
  /-- A pictograph and marks after it. -/
  pictograph : Bool
  /-- The same and a joiner. -/
  joined : Bool
  /-- A consonant and marks after it. -/
  consonant : Bool
  /-- There is a linker among these marks. -/
  linked : Bool
  deriving DecidableEq

namespace Ending

/-- A text of one character. -/
def single (c : Char) : Ending :=
  let kind := Kind.ofChar c
  { last := kind
    oddRegional := kind = .regional
    pictograph := kind = .pictograph
    joined := false
    consonant := kind = .consonant
    linked := false }

/-- The text and one more character. -/
def push (e : Ending) (c : Char) : Ending :=
  let kind := Kind.ofChar c
  let goesOn := e.consonant && isBetweenConsonants c kind
  { last := kind
    oddRegional := kind = .regional && !e.oddRegional
    pictograph := kind = .pictograph || (e.pictograph && kind = .extend)
    joined := e.pictograph && kind = .joiner
    consonant := kind = .consonant || goesOn
    linked := goesOn && (e.linked || inRanges linkerRanges c) }

/-- There is no cut between the text and a character. -/
def holds (e : Ending) (c : Char) : Bool :=
  let kind := Kind.ofChar c
  if e.last.standsAlone || kind.standsAlone then e.last = .carriageReturn && kind = .lineFeed
  else
    kind.isMark || e.last = .prepend || e.last.makesSyllable kind ||
      (e.linked && kind = .consonant) || (e.joined && kind = .pictograph) ||
      (e.oddRegional && kind = .regional)

end Ending

/-- The clusters of a text whose first cluster has begun, its last character in front. -/
def cut (e : Ending) (begun : List Char) : List Char → List (List Char)
  | [] => [begun.reverse]
  | c :: rest =>
    if e.holds c then cut (e.push c) (c :: begun) rest
    else begun.reverse :: cut (e.push c) [c] rest

theorem flatten_cut (e : Ending) (begun s : List Char) :
    (cut e begun s).flatten = begun.reverse ++ s := by
  induction s generalizing e begun with
  | nil => simp [cut]
  | cons c rest ih => by_cases h : e.holds c <;> simp [cut, h, ih]

end Cluster

/-- The pieces of a text that are one character each to a reader. -/
def clusters : List Char → List (List Char)
  | [] => []
  | c :: rest => Cluster.cut (.single c) [c] rest

@[simp] theorem flatten_clusters (s : List Char) : (clusters s).flatten = s := by
  cases s with
  | nil => rfl
  | cons c rest => simp [clusters, Cluster.flatten_cut]

end LineScript.Text
