import LineScript.Text.Cluster

/-!
# Backspaces

A backspace in a typed line takes back the cluster before it. `eraseBackspaces` is what is left
of a line; `eraseBackspaces_eq_self` says that a line without backspaces stays as it is.
-/

namespace LineScript.Text

/-- A text without its last bytes, given with its last character in front. A character that is
cut goes as a whole. -/
def dropBytes : Nat → List Char → List Char
  | 0, s => s
  | _ + 1, [] => []
  | n + 1, c :: rest => dropBytes (n + 1 - c.utf8Size) rest

def backspace : Char := '\x08'

/-- What is left of the part of a line that has been read. -/
structure Typed where
  /-- The last character in front. -/
  text : List Char := []
  /-- The number of bytes that each backspace will take back, the next one in front. -/
  sizes : List Nat := []

namespace Typed

/-- The bytes that a backspace takes back after a cluster. The size of the cluster is kept in one
byte, so that of a huge cluster something stays. -/
def keptSize (cluster : List Char) : Nat :=
  cluster.foldl (fun size c => size + c.utf8Size) 0 % 256

def push (t : Typed) (cluster : List Char) : Typed :=
  if cluster = [backspace] then
    match t.sizes with
    | [] => t
    | n :: rest => { text := dropBytes n t.text, sizes := rest }
  else { text := cluster.reverse ++ t.text, sizes := keptSize cluster :: t.sizes }

/-- What is left of clusters. -/
def ofClusters (cs : List (List Char)) : Typed :=
  cs.foldl push {}

theorem text_foldl_push {cs : List (List Char)} (t : Typed) (h : [backspace] ∉ cs) :
    (cs.foldl push t).text = cs.flatten.reverse ++ t.text := by
  induction cs generalizing t with
  | nil => simp
  | cons cluster rest ih =>
    have hc : cluster ≠ [backspace] := fun e => h (by simp [e])
    have hr : [backspace] ∉ rest := fun e => h (by simp [e])
    simp [push, hc, ih _ hr]

end Typed

/-- A typed line after its backspaces have done their work. -/
def eraseBackspaces (line : String) : String :=
  String.ofList (Typed.ofClusters (clusters line.toList)).text.reverse

theorem eraseBackspaces_eq_self {line : String} (h : backspace ∉ line.toList) :
    eraseBackspaces line = line := by
  have hc : [backspace] ∉ clusters line.toList := by
    intro hm
    apply h
    rw [← flatten_clusters line.toList]
    exact List.mem_flatten.2 ⟨_, hm, by simp⟩
  simp [eraseBackspaces, Typed.ofClusters, Typed.text_foldl_push _ hc]

end LineScript.Text
