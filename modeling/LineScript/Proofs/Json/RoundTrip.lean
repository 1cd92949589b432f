import LineScript.Json
import LineScript.Message.Color
import Mathlib.Data.List.Basic

/-!
# Reading JSON

`Json.read?` reads a text as a JSON value: blanks may stand between the parts, strings may have any
of the escapes, and a number is kept as it is written. It knows nothing of the way in which `write`
puts values, and reads more than that. Main statements: what is written is read again as the value
that it was (`Proper.read?_write`), and is written without control characters, so on a single line
(`Proper.printable`).
-/

namespace LineScript.Json

/-! ## Strings -/

def isSpace (c : Char) : Bool :=
  c == ' ' || c == '\t' || c == '\n' || c == '\r'

def skipSpaces (cs : List Char) : List Char :=
  cs.dropWhile isSpace

/-- The number that four hexadecimal digits stand for, and what follows them. -/
def unit? : List Char → Option (Nat × List Char)
  | a :: b :: c :: d :: rest => do
    let high := 16 * (← Color.hexValue? a) + (← Color.hexValue? b)
    let low := 16 * (← Color.hexValue? c) + (← Color.hexValue? d)
    return (256 * high + low, rest)
  | _ => none

/-- The characters that are escaped by a single letter or sign. -/
def shortEscapes : List (Char × Char) :=
  [('"', '"'), ('\\', '\\'), ('/', '/'), ('n', '\n'), ('r', '\r'), ('t', '\t'),
   ('b', Char.ofNat 8), ('f', Char.ofNat 12)]

/-- The character that an escape stands for, after its backslash, and the rest. A character outside
the first plane is written in two halves, and no half stands alone. -/
def escape? : List Char → Option (Char × List Char)
  | 'u' :: rest =>
    match unit? rest with
    | none => none
    | some (unit, rest) =>
      if unit < 0xd800 ∨ 0xdfff < unit then some (Char.ofNat unit, rest)
      else
        match rest with
        | '\\' :: 'u' :: rest =>
          match unit? rest with
          | none => none
          | some (second, rest) =>
            if unit < 0xdc00 ∧ 0xdc00 ≤ second ∧ second ≤ 0xdfff then
              some (Char.ofNat (0x10000 + 0x400 * (unit - 0xd800) + (second - 0xdc00)), rest)
            else none
        | _ => none
  | c :: rest => (shortEscapes.lookup c).map (·, rest)
  | [] => none

theorem length_lt_of_unit? {cs rest : List Char} {unit : Nat} (h : unit? cs = some (unit, rest)) :
    rest.length < cs.length := by
  unfold unit? at h
  split at h
  · simp only [Option.bind_eq_bind, Option.pure_def, Option.bind_eq_some_iff, Option.some.injEq,
      Prod.mk.injEq] at h
    obtain ⟨-, -, -, -, -, -, -, -, -, rfl⟩ := h
    simp only [List.length_cons]
    omega
  · cases h

theorem length_lt_of_escape? {cs rest : List Char} {c : Char} (h : escape? cs = some (c, rest)) :
    rest.length < cs.length := by
  unfold escape? at h
  split at h
  · split at h
    · cases h
    · rename_i first
      have shorter := length_lt_of_unit? first
      split at h
      · obtain ⟨-, rfl⟩ := Prod.mk.inj (Option.some.inj h)
        exact Nat.lt_succ_of_lt shorter
      · split at h
        · split at h
          · cases h
          · rename_i second
            have shorter' := length_lt_of_unit? second
            split at h
            · obtain ⟨-, rfl⟩ := Prod.mk.inj (Option.some.inj h)
              simp only [List.length_cons] at shorter ⊢
              omega
            · cases h
        · cases h
  · obtain ⟨_, -, eq⟩ := Option.map_eq_some_iff.mp h
    cases eq
    simp
  · cases h

/-- The characters of a string, after its first quote, and what follows its last one. -/
def chars? : List Char → Option (List Char × List Char)
  | '"' :: rest => some ([], rest)
  | '\\' :: rest =>
    match _found : escape? rest with
    | some (c, after) => (chars? after).map fun r => (c :: r.1, r.2)
    | none => none
  | c :: rest =>
    if c.toNat < 0x20 then none else (chars? rest).map fun r => (c :: r.1, r.2)
  | [] => none
termination_by cs => cs.length
decreasing_by
  · have := length_lt_of_escape? _found
    simp only [List.length_cons]
    omega
  · simp

/-! ## Literals and numbers -/

/-- What may follow the whole part of a number and its fraction. -/
def isExponent : List Char → Bool
  | [] => true
  | mark :: rest =>
    (mark == 'e' || mark == 'E') &&
      match rest with
      | '+' :: digits => !digits.isEmpty && digits.all Char.isDigit
      | '-' :: digits => !digits.isEmpty && digits.all Char.isDigit
      | digits => !digits.isEmpty && digits.all Char.isDigit

/-- What may follow the whole part of a number. -/
def isFraction : List Char → Bool
  | '.' :: digit :: rest => digit.isDigit && isExponent (rest.dropWhile Char.isDigit)
  | rest => isExponent rest

/-- A number that has no sign. It starts with zero only if that is its whole part. -/
def isUnsigned : List Char → Bool
  | '0' :: rest => isFraction rest
  | digit :: rest => digit.isDigit && isFraction (rest.dropWhile Char.isDigit)
  | [] => false

def isNumber : List Char → Bool
  | '-' :: rest => isUnsigned rest
  | rest => isUnsigned rest

/-- The characters of which literals and numbers are made. -/
def isAtomChar (c : Char) : Bool :=
  c.isAlphanum || c == '+' || c == '-' || c == '.'

def atomValue? (run : List Char) : Option Json :=
  if run = "null".toList then some .null
  else if run = "true".toList then some (.bool true)
  else if run = "false".toList then some (.bool false)
  else if isNumber run then some (.number (String.ofList run))
  else none

/-- A literal or a number, and the rest. -/
def atom? (cs : List Char) : Option (Json × List Char) :=
  (atomValue? (cs.takeWhile isAtomChar)).map (·, cs.dropWhile isAtomChar)

/-! ## Values -/

/-- Parts with commas between them up to a closing sign, and what follows it; there may be so many
of them. -/
def parts? {α : Type} (part? : List Char → Option (α × List Char)) (close : Char) :
    Nat → List Char → Option (List α × List Char)
  | 0, _ => none
  | count + 1, cs =>
    match part? cs with
    | none => none
    | some (part, rest) =>
      match skipSpaces rest with
      | [] => none
      | c :: rest =>
        if c = ',' then (parts? part? close count rest).map fun r => (part :: r.1, r.2)
        else if c = close then some ([part], rest)
        else none

/-- A name, a colon and a value. -/
def member? (value? : List Char → Option (Json × List Char)) (cs : List Char) :
    Option ((String × Json) × List Char) :=
  match skipSpaces cs with
  | '"' :: rest =>
    match chars? rest with
    | none => none
    | some (name, rest) =>
      match skipSpaces rest with
      | ':' :: rest => (value? rest).map fun r => ((String.ofList name, r.1), r.2)
      | _ => none
  | _ => none

/-- The value at the start of a text, and what follows it. Values may be nested so deep. -/
def value? : Nat → List Char → Option (Json × List Char)
  | 0, _ => none
  | depth + 1, cs =>
    match skipSpaces cs with
    | '"' :: rest => (chars? rest).map fun r => (.string (String.ofList r.1), r.2)
    | '[' :: rest =>
      match skipSpaces rest with
      | ']' :: rest => some (.array [], rest)
      | rest => (parts? (value? depth) ']' rest.length rest).map fun r => (.array r.1, r.2)
    | '\x7b' :: rest =>
      match skipSpaces rest with
      | '\x7d' :: rest => some (.object [], rest)
      | rest =>
        (parts? (member? (value? depth)) '\x7d' rest.length rest).map fun r => (.object r.1, r.2)
    | rest => atom? rest

/-- The value that a text holds, with nothing but blanks around it. -/
def read? (text : List Char) : Option Json :=
  match value? (text.length + 1) text with
  | some (value, rest) => if rest.all isSpace then some value else none
  | none => none

/-! ## Written strings -/

theorem skipSpaces_cons {c : Char} (plain : isSpace c = false) (rest : List Char) :
    skipSpaces (c :: rest) = c :: rest := by
  rw [skipSpaces, List.dropWhile_cons_of_neg (by simp [plain])]

theorem hexValue?_hexDigit {d : Nat} (small : d < 16) : Color.hexValue? (hexDigit d) = some d := by
  have all : ∀ d < 16, Color.hexValue? (hexDigit d) = some d := by decide
  exact all d small

theorem unit?_control {n : Nat} (control : n < 0x20) (rest : List Char) :
    unit? ('0' :: '0' :: hexDigit (n / 16) :: hexDigit (n % 16) :: rest) = some (n, rest) := by
  have zero : Color.hexValue? '0' = some 0 := by decide
  have high := hexValue?_hexDigit (d := n / 16) (by omega)
  have low := hexValue?_hexDigit (d := n % 16) (by omega)
  simp [unit?, zero, high, low, Nat.div_add_mod]

theorem escape?_control {c : Char} (control : c.toNat < 0x20) (rest : List Char) :
    escape? ('u' :: '0' :: '0' :: hexDigit (c.toNat / 16) :: hexDigit (c.toNat % 16) :: rest) =
      some (c, rest) := by
  have first : c.toNat < 0xd800 ∨ 0xdfff < c.toNat := by omega
  rw [escape?, unit?_control control]
  dsimp only
  rw [if_pos first, Char.ofNat_toNat]

theorem chars?_escape {cs after : List Char} {c : Char} (h : escape? cs = some (c, after)) :
    chars? ('\\' :: cs) = (chars? after).map fun r => (c :: r.1, r.2) := by
  rw [chars?]
  split
  · rename_i found
    cases h.symm.trans found
    rfl
  · rename_i missing
    cases h.symm.trans missing

/-- A character is read from what it is written as. -/
theorem chars?_encodeChar (c : Char) (rest : List Char) :
    chars? (encodeChar c ++ rest) = (chars? rest).map fun r => (c :: r.1, r.2) := by
  unfold encodeChar
  split_ifs with quote backslash line carriage tab back form control
  · subst quote
    exact chars?_escape rfl
  · subst backslash
    exact chars?_escape rfl
  · subst line
    exact chars?_escape rfl
  · subst carriage
    exact chars?_escape rfl
  · subst tab
    exact chars?_escape rfl
  · rw [← Char.ofNat_toNat c, back]
    exact chars?_escape rfl
  · rw [← Char.ofNat_toNat c, form]
    exact chars?_escape rfl
  · exact chars?_escape (escape?_control control rest)
  · rw [List.singleton_append, chars?, if_neg control]
    · exact quote
    · exact backslash

/-- A string is read to its last quote, whatever follows. -/
theorem chars?_encoded (cs rest : List Char) :
    chars? (cs.flatMap encodeChar ++ '"' :: rest) = some (cs, rest) := by
  induction cs with
  | nil => rw [List.flatMap_nil, List.nil_append, chars?]
  | cons c cs ih =>
    rw [List.flatMap_cons, List.append_assoc, chars?_encodeChar, ih, Option.map_some]

theorem writeString_append (s : String) (rest : List Char) :
    writeString s ++ rest = '"' :: (s.toList.flatMap encodeChar ++ '"' :: rest) := by
  simp [writeString]

/-! ## Written literals and numbers -/

/-- A literal or a number ends before the rest. -/
def Ends (rest : List Char) : Prop :=
  ∀ c ∈ rest.head?, isAtomChar c = false

theorem atom?_append {run rest : List Char} (inside : ∀ c ∈ run, isAtomChar c = true)
    (ends : Ends rest) : atom? (run ++ rest) = (atomValue? run).map (·, rest) := by
  have stops : rest.takeWhile isAtomChar = [] ∧ rest.dropWhile isAtomChar = rest := by
    cases rest with
    | nil => exact ⟨rfl, rfl⟩
    | cons c rest =>
      have other : isAtomChar c = false := ends c rfl
      simp [other]
  rw [atom?, List.takeWhile_append_of_pos inside, List.dropWhile_append_of_pos inside, stops.1,
    stops.2, List.append_nil]

/-- The characters that a value can begin with and that are no part of a literal or a number are
among these, and so are the blanks. -/
theorem ne_of_isAtomChar {c d : Char} (atom : isAtomChar c = true)
    (other : isAtomChar d = false) : c ≠ d := by
  rintro rfl
  rw [atom] at other
  cases other

theorem isSpace_of_isAtomChar {c : Char} (atom : isAtomChar c = true) : isSpace c = false := by
  have blank := ne_of_isAtomChar (d := ' ') atom (by decide)
  have tab := ne_of_isAtomChar (d := '\t') atom (by decide)
  have line := ne_of_isAtomChar (d := '\n') atom (by decide)
  have carriage := ne_of_isAtomChar (d := '\r') atom (by decide)
  simp [isSpace, blank, tab, line, carriage]

theorem value?_atom {run rest : List Char} {j : Json} (inside : ∀ c ∈ run, isAtomChar c = true)
    (value : atomValue? run = some j) (ends : Ends rest) (depth : Nat) :
    value? (depth + 1) (run ++ rest) = some (j, rest) := by
  have read : atom? (run ++ rest) = some (j, rest) := by
    rw [atom?_append inside ends, value, Option.map_some]
  cases run with
  | nil => cases value
  | cons c run =>
    have atom := inside c List.mem_cons_self
    have quote := ne_of_isAtomChar (d := '"') atom (by decide)
    have bracket := ne_of_isAtomChar (d := '[') atom (by decide)
    have brace := ne_of_isAtomChar (d := '\x7b') atom (by decide)
    rw [← read, List.cons_append, value?, skipSpaces_cons (isSpace_of_isAtomChar atom)]
    split
    · rename_i eq
      exact absurd (List.cons.inj eq).1 quote
    · rename_i eq
      exact absurd (List.cons.inj eq).1 bracket
    · rename_i eq
      exact absurd (List.cons.inj eq).1 brace
    · rfl

theorem isAtomChar_of_mem_null {c : Char} (mem : c ∈ write .null) : isAtomChar c = true := by
  rw [write] at mem
  exact List.all_eq_true.mp (by decide) c mem

theorem isAtomChar_of_mem_bool {b : Bool} {c : Char} (mem : c ∈ write (.bool b)) :
    isAtomChar c = true := by
  rw [write] at mem
  cases b with
  | false => exact List.all_eq_true.mp (by decide) c mem
  | true => exact List.all_eq_true.mp (by decide) c mem

/-- A bracket that is not closed at once opens an array with items. -/
theorem value?_bracket {c : Char} (plain : isSpace c = false) (opens : c ≠ ']') (cs : List Char)
    (depth : Nat) : value? (depth + 1) ('[' :: c :: cs) =
      (parts? (value? depth) ']' (c :: cs).length (c :: cs)).map fun r => (.array r.1, r.2) := by
  rw [value?, skipSpaces_cons (by decide)]
  simp only [skipSpaces_cons plain]
  split
  · rename_i eq
    exact absurd (List.cons.inj eq).1 opens
  · rfl

/-- A brace that is not closed at once opens an object with members. -/
theorem value?_brace {c : Char} (plain : isSpace c = false) (opens : c ≠ '\x7d') (cs : List Char)
    (depth : Nat) : value? (depth + 1) ('\x7b' :: c :: cs) =
      (parts? (member? (value? depth)) '\x7d' (c :: cs).length (c :: cs)).map
        fun r => (.object r.1, r.2) := by
  rw [value?, skipSpaces_cons (by decide)]
  simp only [skipSpaces_cons plain]
  split
  · rename_i eq
    exact absurd (List.cons.inj eq).1 opens
  · rfl

/-! ## Written values -/

/-- A value whose numbers are numbers. -/
inductive Proper : Json → Prop where
  | null : Proper .null
  | bool (b : Bool) : Proper (.bool b)
  | number {text : String} (inside : ∀ c ∈ text.toList, isAtomChar c = true)
      (number : atomValue? text.toList = some (.number text)) : Proper (.number text)
  | string (s : String) : Proper (.string s)
  | array {items : List Json} (each : ∀ item ∈ items, Proper item) : Proper (.array items)
  | object {members : List (String × Json)} (each : ∀ member ∈ members, Proper member.2) :
      Proper (.object members)

theorem writeItems_eq_map (items : List Json) : writeItems items = items.map write := by
  induction items with
  | nil => rfl
  | cons item items ih => rw [writeItems, ih, List.map_cons]

/-- A member of an object as it is written. -/
def writeMember (member : String × Json) : List Char :=
  writeString member.1 ++ ':' :: write member.2

theorem writeFields_eq_map (members : List (String × Json)) :
    writeFields members = members.map writeMember := by
  induction members with
  | nil => rfl
  | cons member members ih => rw [writeFields, ih, List.map_cons, writeMember]

theorem write_array (items : List Json) :
    write (.array items) = '[' :: commaSeparated (items.map write) ++ [']'] := by
  rw [write, writeItems_eq_map]

theorem write_object (members : List (String × Json)) :
    write (.object members) = '\x7b' :: commaSeparated (members.map writeMember) ++ ['\x7d'] := by
  rw [write, writeFields_eq_map]

theorem commaSeparated_cons (part : List Char) {parts : List (List Char)} (any : parts ≠ []) :
    commaSeparated (part :: parts) = part ++ ',' :: commaSeparated parts := by
  cases parts with
  | nil => exact absurd rfl any
  | cons next parts => rfl

theorem length_le_commaSeparated (parts : List (List Char)) :
    parts.length ≤ (commaSeparated parts).length + 1 := by
  induction parts with
  | nil => simp
  | cons part parts ih =>
    cases parts with
    | nil => simp
    | cons next parts =>
      rw [commaSeparated_cons part (List.cons_ne_nil next parts)]
      simp only [List.length_append, List.length_cons] at ih ⊢
      omega

theorem length_le_of_mem_parts {part : List Char} {parts : List (List Char)} (mem : part ∈ parts) :
    part.length ≤ (commaSeparated parts).length := by
  induction parts with
  | nil => cases mem
  | cons first parts ih =>
    cases parts with
    | nil =>
      obtain rfl := List.mem_singleton.mp mem
      exact Nat.le_refl _
    | cons next parts =>
      rw [commaSeparated_cons first (List.cons_ne_nil next parts), List.length_append,
        List.length_cons]
      rcases List.mem_cons.mp mem with rfl | later
      · omega
      · have := ih later
        omega

/-- Parts are read one after the other if each is read on its own, whatever comes after it. -/
theorem parts?_commaSeparated {α : Type} {part? : List Char → Option (α × List Char)}
    {spell : α → List Char} {close : Char} (closes : close ∈ [']', '\x7d']) {parts : List α}
    (any : parts ≠ [])
    (each : ∀ part ∈ parts, ∀ rest, Ends rest → part? (spell part ++ rest) = some (part, rest))
    {count : Nat} (enough : parts.length ≤ count) (rest : List Char) :
    parts? part? close count (commaSeparated (parts.map spell) ++ close :: rest) =
      some (parts, rest) := by
  obtain ⟨comma, blank, atom⟩ : close ≠ ',' ∧ isSpace close = false ∧ isAtomChar close = false := by
    simp only [List.mem_cons, List.not_mem_nil, or_false] at closes
    rcases closes with rfl | rfl <;> decide
  -- Every part that is read takes one from the count.
  induction parts generalizing count with
  | nil => exact absurd rfl any
  | cons part parts ih =>
    obtain ⟨count, rfl⟩ := Nat.exists_eq_succ_of_ne_zero (Nat.ne_zero_of_lt enough)
    obtain ⟨here, later⟩ := List.forall_mem_cons.mp each
    -- The last part stands before the closing sign, the others before a comma.
    cases parts with
    | nil =>
      have ends : Ends (close :: rest) := by
        rintro c ⟨⟩
        exact atom
      rw [List.map_singleton, commaSeparated, parts?, here _ ends]
      simp only [skipSpaces_cons blank, if_neg comma, if_true]
    | cons next parts =>
      have ends : Ends (',' :: (commaSeparated ((next :: parts).map spell) ++ close :: rest)) := by
        rintro c ⟨⟩
        decide
      have others := ih (List.cons_ne_nil next parts) later (Nat.le_of_succ_le_succ enough)
      rw [List.map_cons, commaSeparated_cons _ (by simp), List.append_assoc, List.cons_append,
        parts?, here _ ends]
      simp only [skipSpaces_cons (c := ',') (by decide), if_true, others, Option.map_some]

/-- The same with what a list needs that is not closed at once. -/
theorem exists_cons_parts?_eq_some {α : Type} (part? : List Char → Option (α × List Char))
    (spell : α → List Char) {close : Char} (closes : close ∈ [']', '\x7d']) {parts : List α}
    (any : parts ≠ [])
    (starts : ∀ part ∈ parts, ∃ c cs, spell part = c :: cs ∧ isSpace c = false ∧ c ≠ close)
    (each : ∀ part ∈ parts, ∀ rest, Ends rest → part? (spell part ++ rest) = some (part, rest))
    (rest : List Char) :
    ∃ c cs, commaSeparated (parts.map spell) ++ close :: rest = c :: cs ∧ isSpace c = false ∧
      c ≠ close ∧ parts? part? close (c :: cs).length (c :: cs) = some (parts, rest) := by
  have count : parts.length ≤ (commaSeparated (parts.map spell) ++ close :: rest).length := by
    have few := length_le_commaSeparated (parts.map spell)
    rw [List.length_map] at few
    rw [List.length_append, List.length_cons]
    omega
  have read := parts?_commaSeparated closes any each count rest
  obtain ⟨part, others, rfl⟩ := List.exists_cons_of_ne_nil any
  obtain ⟨c, cs, spelled, plain, opens⟩ := starts part List.mem_cons_self
  obtain ⟨more, first⟩ : ∃ more, commaSeparated ((part :: others).map spell) = c :: more := by
    rw [List.map_cons, spelled]
    cases others.map spell with
    | nil => exact ⟨cs, rfl⟩
    | cons next parts => exact ⟨cs ++ ',' :: commaSeparated (next :: parts), rfl⟩
  rw [first, List.cons_append] at read ⊢
  exact ⟨c, more ++ close :: rest, rfl, plain, opens, read⟩

theorem member?_writeMember {value? : List Char → Option (Json × List Char)}
    {member : String × Json} {rest : List Char}
    (here : value? (member.2.write ++ rest) = some (member.2, rest)) :
    member? value? (writeMember member ++ rest) = some (member, rest) := by
  have spelled : writeMember member ++ rest =
      '"' :: (member.1.toList.flatMap encodeChar ++ '"' :: ':' :: (write member.2 ++ rest)) := by
    simp [writeMember, writeString_append]
  rw [spelled, member?, skipSpaces_cons (by decide)]
  simp only [chars?_encoded, skipSpaces_cons (c := ':') (by decide), here, Option.map_some,
    String.ofList_toList]

/-- What is written for a value begins with no blank, and not with the end of an array. -/
theorem Proper.exists_cons {j : Json} (proper : j.Proper) :
    ∃ c cs, j.write = c :: cs ∧ isSpace c = false ∧ c ≠ ']' := by
  cases proper with
  | null => exact ⟨'n', _, rfl, by decide, by decide⟩
  | bool b =>
    cases b with
    | false => exact ⟨'f', _, rfl, by decide, by decide⟩
    | true => exact ⟨'t', _, rfl, by decide, by decide⟩
  | @number text inside number =>
    rw [write]
    cases eq : text.toList with
    | nil =>
      rw [eq] at number
      cases number
    | cons c cs =>
      have atom := inside c (by simp [eq])
      exact ⟨c, cs, rfl, isSpace_of_isAtomChar atom, ne_of_isAtomChar atom (by decide)⟩
  | string s => exact ⟨'"', _, rfl, by decide, by decide⟩
  | @array items each => exact ⟨'[', _, write_array items, by decide, by decide⟩
  | @object members each => exact ⟨'\x7b', _, write_object members, by decide, by decide⟩

theorem length_write_le (member : String × Json) :
    member.2.write.length < (writeMember member).length := by
  simp only [writeMember, List.length_append, List.length_cons]
  omega

/-- A value is read from what it is written as, whatever comes after it. -/
theorem Proper.value?_write {j : Json} (proper : j.Proper) :
    ∀ (depth : Nat) (rest : List Char), j.write.length ≤ depth → Ends rest →
      value? (depth + 1) (j.write ++ rest) = some (j, rest) := by
  -- Parts are shorter than the whole: if its length is depth enough, theirs is one level down.
  induction proper with
  | null =>
    intro depth rest _ ends
    exact value?_atom (fun _ => isAtomChar_of_mem_null) rfl ends depth
  | bool b =>
    intro depth rest _ ends
    cases b with
    | false => exact value?_atom (fun _ => isAtomChar_of_mem_bool) rfl ends depth
    | true => exact value?_atom (fun _ => isAtomChar_of_mem_bool) rfl ends depth
  | number inside number =>
    intro depth rest _ ends
    rw [write]
    exact value?_atom inside number ends depth
  | string s =>
    intro depth rest _ _
    rw [write, writeString_append, value?, skipSpaces_cons (by decide)]
    simp only [chars?_encoded, Option.map_some, String.ofList_toList]
  | @array items each ih =>
    intro depth rest enough _
    rw [write_array] at enough ⊢
    by_cases none : items = []
    · subst none
      rw [value?]
      rfl
    simp only [List.cons_append, List.length_cons, List.length_append, List.length_nil] at enough
    obtain ⟨depth, rfl⟩ := Nat.exists_eq_succ_of_ne_zero (n := depth) (by omega)
    obtain ⟨c, cs, spelled, plain, opens, read⟩ := exists_cons_parts?_eq_some
      (value? (depth + 1)) write (show ']' ∈ _ by decide) none
      (fun item mem => (each item mem).exists_cons)
      (fun item mem rest ends => by
        have part := length_le_of_mem_parts (List.mem_map_of_mem (f := write) mem)
        exact ih item mem depth rest (by omega) ends) rest
    have opened : '[' :: commaSeparated (items.map write) ++ [']'] ++ rest = '[' :: c :: cs := by
      simp [← spelled]
    rw [opened, value?_bracket plain opens, read, Option.map_some]
  | @object members each ih =>
    intro depth rest enough _
    rw [write_object] at enough ⊢
    by_cases none : members = []
    · subst none
      rw [value?]
      rfl
    simp only [List.cons_append, List.length_cons, List.length_append, List.length_nil] at enough
    obtain ⟨depth, rfl⟩ := Nat.exists_eq_succ_of_ne_zero (n := depth) (by omega)
    obtain ⟨c, cs, spelled, plain, opens, read⟩ := exists_cons_parts?_eq_some
      (member? (value? (depth + 1))) writeMember (show '\x7d' ∈ _ by decide) none
      (fun member mem => ⟨'"', _, rfl, by decide, by decide⟩)
      (fun member mem rest ends => by
        have part := length_le_of_mem_parts (List.mem_map_of_mem (f := writeMember) mem)
        have value := length_write_le member
        exact member?_writeMember (ih member mem depth rest (by omega) ends)) rest
    have opened : '\x7b' :: commaSeparated (members.map writeMember) ++ ['\x7d'] ++ rest =
        '\x7b' :: c :: cs := by
      simp [← spelled]
    rw [opened, value?_brace plain opens, read, Option.map_some]

/-- What is written is read again as it was. -/
theorem Proper.read?_write {j : Json} (proper : j.Proper) : read? j.write = some j := by
  have whole := proper.value?_write j.write.length [] (Nat.le_refl _) nofun
  rw [List.append_nil] at whole
  rw [read?, whole]
  rfl

/-! ## One line -/

/-- The character is no control character. -/
def IsPrintable (c : Char) : Prop :=
  0x20 ≤ c.toNat

instance (c : Char) : Decidable (IsPrintable c) :=
  inferInstanceAs (Decidable (0x20 ≤ c.toNat))

theorem printable_encodeChar {c d : Char} (mem : d ∈ encodeChar c) : IsPrintable d := by
  have digit : ∀ n < 16, IsPrintable (hexDigit n) := by decide
  have short {letter : Char} (printable : IsPrintable letter) :
      ∀ d ∈ ['\\', letter], IsPrintable d :=
    List.forall_mem_cons.mpr ⟨by decide, List.forall_mem_singleton.mpr printable⟩
  unfold encodeChar at mem
  split_ifs at mem with _ _ _ _ _ _ _ control
  · exact short (by decide) d mem
  · exact short (by decide) d mem
  · exact short (by decide) d mem
  · exact short (by decide) d mem
  · exact short (by decide) d mem
  · exact short (by decide) d mem
  · exact short (by decide) d mem
  · simp only [List.mem_cons, List.not_mem_nil, or_false] at mem
    rcases mem with rfl | rfl | rfl | rfl | rfl | rfl
    · decide
    · decide
    · decide
    · decide
    · exact digit _ (by omega)
    · exact digit _ (by omega)
  · obtain rfl := List.mem_singleton.mp mem
    exact Nat.le_of_not_lt control

theorem printable_writeString {s : String} {c : Char} (mem : c ∈ writeString s) :
    IsPrintable c := by
  simp only [writeString, List.mem_append, List.mem_cons, List.mem_flatMap, List.not_mem_nil,
    or_false] at mem
  rcases mem with (rfl | ⟨d, -, mem⟩) | rfl
  · decide
  · exact printable_encodeChar mem
  · decide

theorem printable_of_isAtomChar {c : Char} (atom : isAtomChar c = true) : IsPrintable c := by
  by_contra control
  have none : ∀ n < 0x20, isAtomChar (Char.ofNat n) = false := by decide
  have other := none c.toNat (Nat.lt_of_not_le control)
  rw [Char.ofNat_toNat, atom] at other
  cases other

theorem mem_commaSeparated {parts : List (List Char)} {c : Char} (mem : c ∈ commaSeparated parts) :
    c = ',' ∨ ∃ part ∈ parts, c ∈ part := by
  induction parts with
  | nil => cases mem
  | cons part parts ih =>
    cases parts with
    | nil => exact .inr ⟨part, List.mem_cons_self, mem⟩
    | cons next parts =>
      rw [commaSeparated_cons part (List.cons_ne_nil next parts)] at mem
      rcases List.mem_append.mp mem with here | later
      · exact .inr ⟨part, List.mem_cons_self, here⟩
      · rcases List.mem_cons.mp later with comma | later
        · exact .inl comma
        · obtain sign | ⟨other, among, mem⟩ := ih later
          · exact .inl sign
          · exact .inr ⟨other, List.mem_cons_of_mem part among, mem⟩

/-- Parts are put into brackets, with commas between them. -/
theorem printable_enclosed {opening closing : Char} (opens : IsPrintable opening)
    (closes : IsPrintable closing) {parts : List (List Char)}
    (each : ∀ part ∈ parts, ∀ c ∈ part, IsPrintable c) {c : Char}
    (mem : c ∈ opening :: commaSeparated parts ++ [closing]) : IsPrintable c := by
  rw [List.cons_append, List.mem_cons, List.mem_append, List.mem_singleton] at mem
  rcases mem with rfl | inside | rfl
  · exact opens
  · obtain rfl | ⟨part, among, mem⟩ := mem_commaSeparated inside
    · decide
    · exact each part among c mem
  · exact closes

/-- What is written for a value has no control character in it, whatever is in its texts. -/
theorem Proper.printable {j : Json} (proper : j.Proper) : ∀ c ∈ j.write, IsPrintable c := by
  induction proper with
  | null => exact fun _ mem => printable_of_isAtomChar (isAtomChar_of_mem_null mem)
  | bool b => exact fun _ mem => printable_of_isAtomChar (isAtomChar_of_mem_bool mem)
  | number inside _ =>
    intro c mem
    rw [write] at mem
    exact printable_of_isAtomChar (inside c mem)
  | string s =>
    intro c mem
    rw [write] at mem
    exact printable_writeString mem
  | @array items each ih =>
    intro c mem
    rw [write_array] at mem
    refine printable_enclosed (by decide) (by decide) (fun part among => ?_) mem
    obtain ⟨item, listed, rfl⟩ := List.mem_map.mp among
    exact ih item listed
  | @object members each ih =>
    intro c mem
    rw [write_object] at mem
    refine printable_enclosed (by decide) (by decide) (fun part among d mem => ?_) mem
    obtain ⟨member, listed, rfl⟩ := List.mem_map.mp among
    rcases List.mem_append.mp mem with name | mem
    · exact printable_writeString name
    · rcases List.mem_cons.mp mem with rfl | value
      · decide
      · exact ih member listed d value

end LineScript.Json
