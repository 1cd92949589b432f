import LineScript.Proofs.Text.LineEnding
import LineScript.Store
import Mathlib.Data.List.Forall2

/-!
# Scripts saved anew

A store whose scripts were saved with other line endings has the same scripts, and each of them
comes out of it with the same lines. What cannot be loaded from the one store cannot be loaded from
the other, for the same reason.
-/

namespace LineScript

/-! ## Stores saved anew -/

/-- The same node, but for the line endings of its text. -/
inductive FileNode.Resaved : FileNode → FileNode → Prop where
  | same (node : FileNode) : Resaved node node
  | text {text text' : String} (resaved : Text.Resaved text text') :
      Resaved (.file (some text)) (.file (some text'))

/-- The same files, but for the line endings of their texts. -/
def Files.Resaved (f f' : Files) : Prop :=
  List.Forall₂ (fun node node' => node.1 = node'.1 ∧ node.2.Resaved node'.2) f.nodes f'.nodes

/-- The same scripts, but for their line endings. -/
inductive Store.Resaved : Store → Store → Prop where
  | memory {scripts scripts' : Bindings String}
      (entries : List.Forall₂ (fun e e' => e.1 = e'.1 ∧ Text.Resaved e.2 e'.2) scripts.entries
        scripts'.entries) : Resaved (.memory scripts) (.memory scripts')
  | folder {files files' : Files} (root extension : String) (nodes : files.Resaved files') :
      Resaved (.folder { files, root, extension }) (.folder { files := files', root, extension })

theorem Store.Resaved.refl (s : Store) : s.Resaved s := by
  cases s with
  | memory scripts => exact .memory (List.forall₂_same.mpr fun e _ => ⟨rfl, .same e.2⟩)
  | folder f => exact .folder _ _ (List.forall₂_same.mpr fun node _ => ⟨rfl, .same node.2⟩)

/-! ## Lookups -/

/-- What is found is the same to a view that does not tell the values apart. -/
theorem map_lookup_eq {α β γ : Type} [BEq α] (view : β → γ) {xs ys : List (α × β)}
    (alike : List.Forall₂ (fun x y => x.1 = y.1 ∧ view x.2 = view y.2) xs ys) (key : α) :
    (xs.lookup key).map view = (ys.lookup key).map view := by
  induction alike with
  | nil => rfl
  | @cons x y xs ys same _ ih =>
    obtain ⟨name, value⟩ := x
    obtain ⟨name', value'⟩ := y
    obtain ⟨rfl, seen⟩ := same
    rw [List.lookup_cons, List.lookup_cons]
    cases key == name with
    | true => exact congrArg some seen
    | false => exact ih

theorem map_fst_eq {α β : Type} {xs ys : List (α × β)}
    (keys : List.Forall₂ (fun x y => x.1 = y.1) xs ys) : xs.map Prod.fst = ys.map Prod.fst := by
  induction keys with
  | nil => rfl
  | cons same _ ih => rw [List.map_cons, List.map_cons, same, ih]

/-! ## Files -/

namespace Files

section

variable {f f' : Files} (resaved : f.Resaved f')
include resaved

theorem Resaved.isFolder_eq (p : Place) : f.isFolder p = f'.isFolder p := by
  obtain ⟨nodes⟩ := f
  obtain ⟨nodes'⟩ := f'
  have entries : List.Forall₂ _ nodes nodes' := resaved
  simp only [isFolder]
  congr 1
  clear resaved
  induction entries with
  | nil => rfl
  | @cons node node' _ _ same _ ih =>
    obtain ⟨place, content⟩ := node
    obtain ⟨place', content'⟩ := node'
    obtain ⟨rfl, saved⟩ := same
    rw [List.any_cons, List.any_cons, ih]
    cases saved <;> rfl

theorem Resaved.follow?_eq (p : Place) (path : List String) :
    f.follow? p path = f'.follow? p path := by
  induction path generalizing p with
  | nil => rfl
  | cons name rest ih => rw [follow?, follow?, resaved.isFolder_eq, ih]

theorem Resaved.place?_eq (path : String) : f.place? path = f'.place? path := by
  simp only [place?, resaved.follow?_eq]

theorem Resaved.filesIn_eq (p : Place) : f.filesIn p = f'.filesIn p := by
  obtain ⟨nodes⟩ := f
  obtain ⟨nodes'⟩ := f'
  have entries : List.Forall₂ _ nodes nodes' := resaved
  simp only [filesIn]
  clear resaved
  induction entries with
  | nil => rfl
  | @cons node node' _ _ same _ ih =>
    obtain ⟨place, content⟩ := node
    obtain ⟨place', content'⟩ := node'
    obtain ⟨rfl, saved⟩ := same
    rw [List.filterMap_cons, List.filterMap_cons, ih]
    cases saved <;> rfl

end

end Files

/-- The lines of a node's text, if it is a file and has one. -/
def FileNode.lines? : FileNode → Option (Option (List String))
  | .file text => some (text.map Text.sourceLines)
  | .folder => none

theorem FileNode.Resaved.lines?_eq {node node' : FileNode} (resaved : node.Resaved node') :
    node.lines? = node'.lines? := by
  cases resaved with
  | same => rfl
  | text resaved => simp only [lines?, Option.map_some, resaved.sourceLines_eq]

theorem Files.Resaved.read?_lines {f f' : Files} (resaved : f.Resaved f') (p : Place) :
    (f.read? p).map (·.map Text.sourceLines) = (f'.read? p).map (·.map Text.sourceLines) := by
  have view : ∀ f : Files, (f.read? p).map (·.map Text.sourceLines) =
      ((f.nodes.lookup p).map FileNode.lines?).join := by
    intro f
    unfold read?
    cases f.nodes.lookup p with
    | none => rfl
    | some node => cases node <;> rfl
  rw [view, view]
  exact congrArg Option.join (map_lookup_eq FileNode.lines?
    (resaved.imp fun _ _ same => ⟨same.1, same.2.lines?_eq⟩) p)

/-! ## Stores -/

/-- The file of a script is found in the same place. -/
theorem ScriptFolder.read?_lines {files files' : Files} (resaved : files.Resaved files')
    (root extension name : String) :
    (read? { files, root, extension } name).map (·.map Text.sourceLines) =
      (read? { files := files', root, extension } name).map (·.map Text.sourceLines) := by
  simp only [read?, fileName, resaved.place?_eq, resaved.follow?_eq]
  cases files'.place? root with
  | none => rfl
  | some folder =>
    cases found : files'.follow? folder (Files.segments (name ++ "." ++ extension)) with
    | none => simp [found]
    | some place => simpa [found] using resaved.read?_lines place

namespace Store

/-- The lines of a script, or nothing if there is none of that name. -/
def lines (s : Store) (name : String) : Except StoreError (Option (List String)) :=
  (s.load name).map (·.map Text.sourceLines)

/-- The lines of a script in a folder, by what its file holds. -/
theorem lines_folder (f : ScriptFolder) (name : String) :
    lines (.folder f) name =
      if !ScriptFolder.isValidName name then .error (.invalidName name)
      else
        match (f.read? name).map (·.map Text.sourceLines) with
        | none => .ok none
        | some (some lines) => .ok (some lines)
        | some none => .error (.unreadable name "stream did not contain valid UTF-8") := by
  simp only [lines, load, ScriptFolder.load]
  split
  · rfl
  · cases f.read? name with
    | none => rfl
    | some text => cases text <;> rfl

section

variable {s s' : Store} (resaved : s.Resaved s')
include resaved

/-- The stores hold the same scripts, line by line. -/
theorem Resaved.lines_eq (name : String) : s.lines name = s'.lines name := by
  cases resaved with
  | memory entries =>
    have found := map_lookup_eq Text.sourceLines
      (entries.imp fun _ _ same => ⟨same.1, same.2.sourceLines_eq⟩) name
    exact congrArg Except.ok found
  | folder root extension files =>
    rw [lines_folder, lines_folder, ScriptFolder.read?_lines files]

theorem Resaved.names_eq : s.names = s'.names := by
  cases resaved with
  | @memory scripts scripts' entries =>
    have sorted : ∀ scripts : Bindings String,
        scripts.names = (scripts.entries.map Prod.fst).mergeSort fun a b => decide (a ≤ b) := by
      intro scripts
      exact List.map_mergeSort fun _ _ _ _ => rfl
    have keys := map_fst_eq (entries.imp fun _ _ same => same.1)
    exact congrArg Except.ok (by rw [sorted, sorted, keys])
  | folder root extension files =>
    simp only [names, ScriptFolder.names, files.place?_eq, files.isFolder_eq, files.filesIn_eq]

end

end Store

end LineScript
