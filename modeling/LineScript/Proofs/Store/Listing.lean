import LineScript.Store
import Mathlib.Data.List.Basic

/-!
# What a folder lists

The name of a script and the name of its file are made from each other in two ways. `load` puts a
dot and the extension behind a name that is one path segment; `names` cuts the name of each file at
its last dot, and does not ask whether what comes out is a name that `load` takes. Main statement:
among the listed scripts, those with a valid name are the ones that can be loaded
(`valid_listed_scripts_are_held`); so the list is right exactly if no listed name is refused, and,
for an extension that no file can have as its last one, if there is nothing to load.
-/

namespace LineScript

/-! ## Files that stand in a folder -/

/-- What stands in a folder under a name. -/
def Place.entry (p : Place) (name : String) : Place :=
  { p with path := p.path ++ [name] }

/-- A name that something can have in its folder. -/
def IsEntryName (name : String) : Prop :=
  name ≠ "" ∧ name ≠ "." ∧ name ≠ ".." ∧ '/' ∉ name.toList

instance (name : String) : Decidable (IsEntryName name) :=
  inferInstanceAs (Decidable (_ ∧ _))

theorem Place.step_of_isEntryName {name : String} (entry : IsEntryName name) (p : Place) :
    p.step name = p.entry name := by
  obtain ⟨filled, here, up, -⟩ := entry
  unfold Place.step
  split
  · exact absurd rfl filled
  · exact absurd rfl here
  · exact absurd rfl up
  · rfl

namespace Files

/-- No two things stand at one place, and every file has a name that its folder can give it. -/
structure Regular (f : Files) : Prop where
  single : (f.nodes.map Prod.fst).Nodup
  named : ∀ place text, (place, FileNode.file text) ∈ f.nodes →
    ∀ name ∈ place.path.getLast?, IsEntryName name

/-- The name in the folder of what stands somewhere, if that is a file in it. -/
def nameIn? (p : Place) (node : Place × FileNode) : Option String :=
  match node.2 with
  | .file _ =>
    if node.1.isAbsolute == p.isAbsolute && node.1.path.dropLast == p.path then
      node.1.path.getLast?
    else none
  | .folder => none

theorem filesIn_eq (f : Files) (p : Place) : f.filesIn p = f.nodes.filterMap (nameIn? p) := rfl

theorem nameIn?_eq_some_iff {p : Place} {node : Place × FileNode} {name : String} :
    nameIn? p node = some name ↔ ∃ text, node = (p.entry name, FileNode.file text) := by
  obtain ⟨place, found⟩ := node
  cases found with
  | folder => simp [nameIn?]
  | file text =>
    constructor
    · intro eq
      simp only [nameIn?, Option.ite_none_right_eq_some, Bool.and_eq_true, beq_iff_eq] at eq
      obtain ⟨⟨absolute, path⟩, last⟩ := eq
      have whole := List.dropLast_append_getLast? name last
      refine ⟨text, ?_⟩
      rw [Place.entry, ← absolute, ← path, whole]
    · rintro ⟨text, eq⟩
      cases eq
      simp [nameIn?, Place.entry]

theorem mem_filesIn {f : Files} {p : Place} {name : String} :
    name ∈ f.filesIn p ↔ ∃ text, (p.entry name, FileNode.file text) ∈ f.nodes := by
  simp only [filesIn_eq, List.mem_filterMap, nameIn?_eq_some_iff]
  constructor
  · rintro ⟨_, stands, text, rfl⟩
    exact ⟨text, stands⟩
  · rintro ⟨text, stands⟩
    exact ⟨_, stands, text, rfl⟩

namespace Regular

variable {f : Files} (regular : f.Regular)
include regular

theorem lookup_eq_some_iff {p : Place} {node : FileNode} :
    f.nodes.lookup p = some node ↔ (p, node) ∈ f.nodes := by
  rw [List.lookup_eq_some_iff]
  constructor
  · rintro ⟨before, after, eq, -⟩
    simp [eq]
  · intro stands
    obtain ⟨before, after, eq⟩ := List.append_of_mem stands
    refine ⟨before, after, eq, fun other among => ?_⟩
    have single := regular.single
    rw [eq, List.map_append, List.map_cons, List.nodup_append] at single
    obtain ⟨-, -, apart⟩ := single
    rw [bne_iff_ne]
    exact (apart other.1 (List.mem_map_of_mem among) p List.mem_cons_self).symm

theorem read?_eq_some_iff {p : Place} {text : Option String} :
    f.read? p = some text ↔ (p, FileNode.file text) ∈ f.nodes := by
  rw [← regular.lookup_eq_some_iff, read?]
  split
  · rename_i found
    simp [found]
  · rename_i other
    constructor
    · nofun
    · exact fun found => absurd found (other text)

theorem nodup_filesIn (p : Place) : (f.filesIn p).Nodup := by
  rw [filesIn_eq, List.Nodup, List.pairwise_filterMap]
  refine (List.pairwise_map.mp regular.single).imp ?_
  rintro first second apart name here name' there rfl
  obtain ⟨_, rfl⟩ := nameIn?_eq_some_iff.mp here
  obtain ⟨_, rfl⟩ := nameIn?_eq_some_iff.mp there
  exact apart rfl

theorem isEntryName {p : Place} {name : String} (mem : name ∈ f.filesIn p) :
    IsEntryName name := by
  obtain ⟨text, stands⟩ := mem_filesIn.mp mem
  exact regular.named _ text stands name (by simp [Place.entry])

end Regular

theorem segments_of_notMem {name : String} (flat : '/' ∉ name.toList) : segments name = [name] := by
  rw [segments, List.splitOn_eq_singleton flat, List.map_singleton, String.ofList_toList]

end Files

namespace ScriptFolder

/-! ## Names of scripts and names of files -/

theorem splitExtension?_eq_some_iff {fileName stem extension : List Char} :
    splitExtension? fileName = some (stem, extension) ↔
      stem ≠ [] ∧ '.' ∉ extension ∧ fileName = stem ++ '.' :: extension := by
  constructor
  · intro eq
    -- Read from its end, the name goes on to the last dot, and then comes the stem.
    have whole := List.takeWhile_append_dropWhile (p := (· != '.')) (l := fileName.reverse)
    have free : '.' ∉ fileName.reverse.takeWhile (· != '.') := fun mem => by
      have other := List.all_eq_true.mp List.all_takeWhile '.' mem
      cases other
    simp only [splitExtension?] at eq
    split at eq
    · cases eq
    · rename_i dot back found
      have isDot : dot = '.' := by
        have stops := List.head?_dropWhile_not (· != '.') fileName.reverse
        rw [found] at stops
        simpa using stops
      split_ifs at eq with filled
      obtain ⟨rfl, rfl⟩ := Prod.mk.inj (Option.some.inj eq)
      refine ⟨by simpa using filled, by simpa using free, ?_⟩
      rw [found, isDot] at whole
      exact (List.reverse_eq_iff.mp whole.symm).trans (by simp)
  · rintro ⟨filled, free, rfl⟩
    have before : ∀ c ∈ extension.reverse, (c != '.') = true := by
      intro c mem
      rw [bne_iff_ne]
      rintro rfl
      exact free (List.mem_reverse.mp mem)
    have back : (stem ++ '.' :: extension).reverse = extension.reverse ++ '.' :: stem.reverse := by
      simp
    simp [splitExtension?, back, List.takeWhile_append_of_pos before,
      List.dropWhile_append_of_pos before, filled]

/-- A file holds the script whose name comes before the last dot, if the extension comes after. -/
theorem scriptOf?_eq_some_iff {extension file name : String} :
    scriptOf? extension file = some name ↔
      name ≠ "" ∧ '.' ∉ extension.toList ∧ file = name ++ "." ++ extension := by
  have spelled : file = name ++ "." ++ extension ↔
      file.toList = name.toList ++ '.' :: extension.toList := by
    rw [← String.toList_inj]
    simp
  have filled : name ≠ "" ↔ name.toList ≠ [] := by
    rw [ne_eq, ne_eq, String.toList_eq_nil_iff]
  rw [spelled, filled, ← splitExtension?_eq_some_iff, scriptOf?]
  split
  · rename_i stem found eq
    rw [eq, Option.ite_none_right_eq_some, Option.some.injEq, Option.some.injEq, Prod.mk.injEq]
    constructor
    · rintro ⟨rfl, rfl⟩
      simp
    · rintro ⟨rfl, rfl⟩
      simp
  · rename_i eq
    simp [eq]

theorem toList_fileName (s : ScriptFolder) (name : String) :
    (s.fileName name).toList = name.toList ++ '.' :: s.extension.toList := by
  simp [fileName]

theorem isValidName_iff {name : String} :
    isValidName name = true ↔
      name ≠ "" ∧ '/' ∉ name.toList ∧ '\\' ∉ name.toList ∧ name ≠ "." ∧ name ≠ ".." := by
  simp [isValidName, and_assoc]

/-- Extensions that a file can have after its last dot. -/
def HasPlainExtension (s : ScriptFolder) : Prop :=
  '.' ∉ s.extension.toList ∧ '/' ∉ s.extension.toList

instance (s : ScriptFolder) : Decidable s.HasPlainExtension :=
  inferInstanceAs (Decidable (_ ∧ _))

/-- The file of a script with a valid name can stand in the folder. -/
theorem isEntryName_fileName {s : ScriptFolder} {name : String} (valid : isValidName name = true)
    (flat : '/' ∉ s.extension.toList) : IsEntryName (s.fileName name) := by
  obtain ⟨filled, inner, -, here, -⟩ := isValidName_iff.mp valid
  have spelled := s.toList_fileName name
  obtain ⟨c, cs, eq⟩ : ∃ c cs, name.toList = c :: cs :=
    List.exists_cons_of_ne_nil fun none => filled (String.toList_eq_nil_iff.mp none)
  refine ⟨?_, ?_, ?_, ?_⟩
  · intro none
    simp [none] at spelled
  · intro dot
    simp [dot, eq] at spelled
  · intro dots
    -- Of two dots one would be the name.
    rw [dots, eq] at spelled
    obtain ⟨first, more⟩ := List.cons.inj spelled
    cases cs with
    | nil =>
      apply here
      rw [← String.toList_inj, eq, ← first]
      rfl
    | cons d cs => simp at more
  · rw [spelled]
    simp [inner, flat]

/-! ## Order -/

theorem pairwise_lt_mergeSort {names : List String} (apart : names.Nodup) :
    (names.mergeSort fun a b => decide (a ≤ b)).Pairwise (· < ·) := by
  have ascending : (names.mergeSort fun a b => decide (a ≤ b)).Pairwise
      fun a b => decide (a ≤ b) = true :=
    List.pairwise_mergeSort (by simpa using fun _ _ _ => String.le_trans)
      (by simpa using String.le_total) names
  have apart := (List.mergeSort_perm names fun a b => decide (a ≤ b)).nodup_iff.mpr apart
  refine (ascending.and apart).imp fun {a b} ⟨le, ne⟩ => ?_
  by_contra other
  exact ne (String.le_antisymm (of_decide_eq_true le) other)

/-! ## What can be loaded -/

/-- The store has a file for the name: it neither refuses the name nor finds nothing. -/
def Holds (s : ScriptFolder) (name : String) : Prop :=
  s.load name ≠ .error (.invalidName name) ∧ s.load name ≠ .ok none

theorem holds_iff {s : ScriptFolder} {name : String} :
    s.Holds name ↔ isValidName name = true ∧ (s.read? name).isSome = true := by
  unfold Holds load
  cases isValidName name with
  | false => simp
  | true =>
    cases s.read? name with
    | none => simp
    | some content => cases content <;> simp

section

variable {s : ScriptFolder} {place : Place} (leads : s.files.place? s.root = some place)
  (folder : s.files.isFolder place = true)
include leads folder

theorem read?_eq {name : String} (valid : isValidName name = true)
    (flat : '/' ∉ s.extension.toList) :
    s.read? name = s.files.read? (place.entry (s.fileName name)) := by
  have entry := isEntryName_fileName valid flat
  have way : s.files.follow? place [s.fileName name] = some (place.entry (s.fileName name)) := by
    rw [Files.follow?, if_pos folder, Files.follow?, Place.step_of_isEntryName entry]
  simp [read?, leads, Files.segments_of_notMem entry.2.2.2, way]

theorem holds_iff_mem_filesIn (regular : s.files.Regular) (flat : '/' ∉ s.extension.toList)
    {name : String} :
    s.Holds name ↔ isValidName name = true ∧ s.fileName name ∈ s.files.filesIn place := by
  rw [holds_iff]
  refine and_congr_right fun valid => ?_
  rw [read?_eq leads folder valid flat, Files.mem_filesIn, Option.isSome_iff_exists]
  exact exists_congr fun _ => regular.read?_eq_some_iff

/-! ## What is listed -/

/-- The list is ascending, without repetitions, and is made of what comes before the last dots. -/
theorem exists_names_eq (regular : s.files.Regular) :
    ∃ listed, s.names = .ok listed ∧ listed.Pairwise (· < ·) ∧
      ∀ name, name ∈ listed ↔
        name ≠ "" ∧ s.HasPlainExtension ∧ s.fileName name ∈ s.files.filesIn place := by
  have found (name : String) :
      name ∈ (s.files.filesIn place).filterMap (scriptOf? s.extension) ↔
        name ≠ "" ∧ s.HasPlainExtension ∧ s.fileName name ∈ s.files.filesIn place := by
    simp only [List.mem_filterMap, scriptOf?_eq_some_iff]
    constructor
    · rintro ⟨_, stands, filled, single, rfl⟩
      have flat := (regular.isEntryName stands).2.2.2
      refine ⟨filled, ⟨single, fun slash => flat ?_⟩, stands⟩
      simp [slash]
    · rintro ⟨filled, ⟨single, -⟩, stands⟩
      exact ⟨_, stands, filled, single, rfl⟩
  have apart : ((s.files.filesIn place).filterMap (scriptOf? s.extension)).Nodup := by
    rw [List.Nodup, List.pairwise_filterMap]
    refine (regular.nodup_filesIn place).imp ?_
    rintro first second apart name here name' there rfl
    have first := (scriptOf?_eq_some_iff.mp here).2.2
    have second := (scriptOf?_eq_some_iff.mp there).2.2
    exact apart (first.trans second.symm)
  refine ⟨_, ?_, pairwise_lt_mergeSort apart, fun name => List.mem_mergeSort.trans (found name)⟩
  simp [names, leads, folder]

/-- In a folder the listed scripts with valid names are those for which there is something to load.
An extension that has a dot or a slash in it lists nothing. So the list is what can be loaded
exactly if none of its names is refused, or, with such an extension, if nothing can be loaded. -/
theorem valid_listed_scripts_are_held (regular : s.files.Regular) :
    ∃ listed, s.names = .ok listed ∧ listed.Pairwise (· < ·) ∧
      (∀ name, name ∈ listed ↔
        name ≠ "" ∧ s.HasPlainExtension ∧ s.fileName name ∈ s.files.filesIn place) ∧
      (s.HasPlainExtension → ∀ name, s.Holds name ↔ name ∈ listed ∧ isValidName name = true) ∧
      ((∀ name, name ∈ listed ↔ s.Holds name) ↔
        if s.HasPlainExtension then ∀ name ∈ listed, isValidName name = true
        else ∀ name, ¬ s.Holds name) := by
  obtain ⟨listed, eq, ascending, mem⟩ := exists_names_eq leads folder regular
  have held (plain : s.HasPlainExtension) (name : String) :
      s.Holds name ↔ name ∈ listed ∧ isValidName name = true := by
    rw [holds_iff_mem_filesIn leads folder regular plain.2, mem]
    constructor
    · rintro ⟨valid, stands⟩
      exact ⟨⟨(isValidName_iff.mp valid).1, plain, stands⟩, valid⟩
    · rintro ⟨⟨-, -, stands⟩, valid⟩
      exact ⟨valid, stands⟩
  refine ⟨listed, eq, ascending, mem, held, ?_⟩
  split_ifs with plain
  · simp only [held plain, iff_self_and]
  · have none (name : String) : name ∉ listed := fun listed => plain ((mem name).mp listed).2.1
    simp only [none, false_iff]

end

/-- A folder with a file that is named as on another system: a folder, a backslash and a file. -/
def borrowed : ScriptFolder where
  files := ⟨[(⟨false, ["scripts", "a\\b.neet"]⟩, .file (some "print x")),
    (⟨false, ["scripts", "intro.neet"]⟩, .file (some "print y"))]⟩
  root := "scripts"
  extension := "neet"

theorem borrowed_regular : borrowed.files.Regular where
  single := by decide
  named := by
    intro place text mem name last
    simp only [borrowed, List.mem_cons, Prod.mk.injEq, List.not_mem_nil, or_false] at mem
    rcases mem with ⟨rfl, -⟩ | ⟨rfl, -⟩
    · obtain rfl := Option.some.inj last
      decide
    · obtain rfl := Option.some.inj last
      decide

theorem borrowed_listed : ∃ listed, borrowed.names = .ok listed ∧
      listed.Pairwise (· < ·) ∧
      (∀ name, name ∈ listed ↔ name ≠ "" ∧ borrowed.HasPlainExtension ∧
        borrowed.fileName name ∈ borrowed.files.filesIn ⟨false, ["scripts"]⟩) ∧
      (borrowed.HasPlainExtension →
        ∀ name, borrowed.Holds name ↔ name ∈ listed ∧ isValidName name = true) ∧
      ((∀ name, name ∈ listed ↔ borrowed.Holds name) ↔
        if borrowed.HasPlainExtension then ∀ name ∈ listed, isValidName name = true
        else ∀ name, ¬ borrowed.Holds name) :=
  valid_listed_scripts_are_held (by decide) (by decide) borrowed_regular

/-- A name with a backslash is refused, and listed all the same. -/
theorem refused_script_is_listed :
    borrowed.files.Regular ∧
      borrowed.files.place? borrowed.root = some ⟨false, ["scripts"]⟩ ∧
      borrowed.files.isFolder ⟨false, ["scripts"]⟩ = true ∧
      borrowed.load "a\\b" = .error (.invalidName "a\\b") ∧
      ∃ listed, borrowed.names = .ok listed ∧ "a\\b" ∈ listed := by
  have leads : borrowed.files.place? borrowed.root = some ⟨false, ["scripts"]⟩ := by decide
  have folder : borrowed.files.isFolder ⟨false, ["scripts"]⟩ = true := by decide
  obtain ⟨listed, eq, -, mem⟩ := exists_names_eq leads folder borrowed_regular
  exact ⟨borrowed_regular, leads, folder, rfl, listed, eq, (mem _).mpr (by decide)⟩

end ScriptFolder

end LineScript
