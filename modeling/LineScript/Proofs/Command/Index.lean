import LineScript.Command.Registry

/-!
# The index of the registry

A registry keeps its commands in one place and the way to them in another. `Registry.Coherent` says
that the two belong together: the index holds the names of the commands, in their order, each with
the place of its command. Every registration keeps it so (`Coherent.register`), hence every series
of them does, and what is looked up in the index is what a search through all commands would find
(`Coherent.find?_eq_some_iff`).

`registrations_keep_index` says what a registry is after any series of registrations, those that
were refused included, and when one is refused.
-/

namespace LineScript

/-! ## Entries -/

namespace Bindings

variable {α : Type} {name : String} {value : α}

/-- A name that is not bound goes behind the others. -/
theorem put_of_notMem {entries : List (String × α)} (free : name ∉ entries.map Prod.fst) :
    put name value entries = entries ++ [(name, value)] := by
  induction entries with
  | nil => rfl
  | cons entry rest ih =>
    rw [List.map_cons, List.mem_cons, not_or] at free
    rw [put, if_neg (Ne.symm free.1), ih free.2, List.cons_append]

/-- If no name occurs twice, looking a name up finds its entry. -/
theorem get?_eq_some_iff {b : Bindings α} (distinct : (b.entries.map Prod.fst).Nodup) :
    b.get? name = some value ↔ (name, value) ∈ b.entries := by
  obtain ⟨entries⟩ := b
  simp only [get?]
  induction entries with
  | nil => simp
  | cons entry rest ih =>
    obtain ⟨key, held⟩ := entry
    obtain ⟨once, distinct⟩ := List.nodup_cons.mp distinct
    by_cases same : name = key
    · have elsewhere : (name, value) ∉ rest := fun mem =>
        once (List.mem_map.mpr ⟨(name, value), mem, same⟩)
      simp [same, eq_comm (a := held)]
      exact fun mem => absurd (same ▸ mem) elsewhere
    · have differs : (name == key) = false := beq_eq_false_iff_ne.mpr same
      simp [List.lookup_cons, differs, same, ih distinct]

end Bindings

namespace Registry

/-! ## Names that are taken -/

theorem firstTaken?_eq_none_iff {taken names : List String} :
    firstTaken? taken names = none ↔ names.Nodup ∧ ∀ name ∈ names, name ∉ taken := by
  induction names generalizing taken with
  | nil => simp [firstTaken?]
  | cons name rest ih =>
    by_cases here : name ∈ taken
    · simp [firstTaken?, here]
    · simp only [firstTaken?, List.contains_iff_mem, if_neg here, ih]
      rw [List.nodup_cons, List.forall_mem_cons]
      constructor
      · rintro ⟨distinct, free⟩
        have once : name ∉ rest := fun mem => free name mem List.mem_cons_self
        exact ⟨⟨once, distinct⟩, here, fun other mem later =>
          free other mem (List.mem_cons_of_mem name later)⟩
      · rintro ⟨⟨once, distinct⟩, -, free⟩
        refine ⟨distinct, fun other mem taken => ?_⟩
        rcases List.mem_cons.mp taken with rfl | taken
        · exact once mem
        · exact free other mem taken

/-- The first name that is taken is the one before which all are free and differ. -/
theorem firstTaken?_eq_some_iff {taken names : List String} {name : String} :
    firstTaken? taken names = some name ↔
      ∃ before after, names = before ++ name :: after ∧ (name ∈ taken ∨ name ∈ before) ∧
        before.Nodup ∧ ∀ other ∈ before, other ∉ taken := by
  induction names generalizing taken with
  | nil => simp [firstTaken?]
  | cons first rest ih =>
    by_cases here : first ∈ taken
    · simp only [firstTaken?, List.contains_iff_mem, if_pos here, Option.some.injEq]
      constructor
      · rintro rfl
        exact ⟨[], rest, rfl, .inl here, List.nodup_nil, by simp⟩
      · rintro ⟨before, after, split, -, -, free⟩
        cases before with
        | nil => exact (List.cons.inj split).1
        | cons other before =>
          obtain ⟨rfl, -⟩ := List.cons.inj split
          exact absurd here (free first List.mem_cons_self)
    · simp only [firstTaken?, List.contains_iff_mem, if_neg here, ih]
      constructor
      · rintro ⟨before, after, rfl, found, distinct, free⟩
        have once : first ∉ before := fun mem => free first mem List.mem_cons_self
        refine ⟨first :: before, after, rfl, ?_, List.nodup_cons.mpr ⟨once, distinct⟩, ?_⟩
        · rcases found with found | found
          · exact (List.mem_cons.mp found).symm.imp_right fun same => List.mem_cons.mpr (.inl same)
          · exact .inr (List.mem_cons_of_mem first found)
        · refine List.forall_mem_cons.mpr ⟨here, fun other mem taken => ?_⟩
          exact free other mem (List.mem_cons_of_mem first taken)
      · rintro ⟨before, after, split, found, distinct, free⟩
        cases before with
        | nil =>
          obtain ⟨rfl, -⟩ := List.cons.inj split
          exact absurd (found.resolve_right (List.not_mem_nil)) here
        | cons other before =>
          obtain ⟨rfl, rfl⟩ := List.cons.inj split
          obtain ⟨once, distinct⟩ := List.nodup_cons.mp distinct
          refine ⟨before, after, rfl, ?_, distinct, fun other mem taken => ?_⟩
          · rcases found with found | found
            · exact .inl (List.mem_cons_of_mem first found)
            · exact (List.mem_cons.mp found).imp_left fun same => List.mem_cons.mpr (.inl same)
          · rcases List.mem_cons.mp taken with rfl | taken
            · exact once mem
            · exact free other (List.mem_cons_of_mem first mem) taken

/-! ## One registration -/

/-- A command as it is registered: its names are folded, and it does what it did before. -/
def folded (fold : String → String) (c : Command) : Command :=
  { c with schema := { c.schema with names := (c.schema.names.map fold).filter (· != "") } }

/-- A spelling that does not fold to nothing is one of the names. -/
theorem mem_names_folded {fold : String → String} {c : Command} {spelling : String}
    (written : spelling ∈ c.schema.names) (something : fold spelling ≠ "") :
    fold spelling ∈ (folded fold c).schema.names :=
  List.mem_filter.mpr ⟨List.mem_map_of_mem written, bne_iff_ne.mpr something⟩

theorem register_eq_ok {r r' : Registry} {c : Command} (ok : r.register c = .ok r') :
    r' = { r with
      commands := r.commands ++ [folded r.fold c]
      index := enter r.commands.length (folded r.fold c).schema.names r.index } := by
  simp only [register] at ok
  split at ok
  · cases ok
  · split at ok
    · cases ok
    · cases ok
      rfl

section

variable {r r' : Registry} {c : Command}

/-- What a registration comes to, by what is left of the names. -/
theorem register_cases (r : Registry) (c : Command) :
    (folded r.fold c).schema.names = [] ∧ r.register c = .error .noNames ∨
      (folded r.fold c).schema.names ≠ [] ∧
        ((∃ name, firstTaken? r.names (folded r.fold c).schema.names = some name ∧
            r.register c = .error (.duplicate name)) ∨
          firstTaken? r.names (folded r.fold c).schema.names = none ∧
            ∃ r', r.register c = .ok r') := by
  unfold register
  simp only [folded]
  generalize (c.schema.names.map r.fold).filter (· != "") = names
  cases names with
  | nil => exact .inl ⟨rfl, rfl⟩
  | cons name rest =>
    refine .inr ⟨List.cons_ne_nil _ _, ?_⟩
    cases taken : firstTaken? r.names (name :: rest) with
    | some other => exact .inl ⟨other, rfl, by simp⟩
    | none => exact .inr ⟨rfl, by simp⟩

theorem register_eq_noNames_iff :
    r.register c = .error .noNames ↔ (folded r.fold c).schema.names = [] := by
  obtain ⟨none, refused⟩ | ⟨some, ⟨_, _, refused⟩ | ⟨_, _, accepted⟩⟩ := register_cases r c
  · simp [none, refused]
  · simp [some, refused]
  · simp [some, accepted]

theorem register_eq_duplicate_iff {name : String} :
    r.register c = .error (.duplicate name) ↔
      firstTaken? r.names (folded r.fold c).schema.names = some name := by
  obtain ⟨none, refused⟩ | ⟨_, ⟨_, taken, refused⟩ | ⟨free, _, accepted⟩⟩ := register_cases r c
  · simp [none, refused, firstTaken?]
  · simp [taken, refused]
  · simp [free, accepted]

theorem exists_register_iff :
    (∃ r', r.register c = .ok r') ↔ (folded r.fold c).schema.names ≠ [] ∧
      (folded r.fold c).schema.names.Nodup ∧
        ∀ name ∈ (folded r.fold c).schema.names, name ∉ r.names := by
  rw [← firstTaken?_eq_none_iff]
  obtain ⟨none, refused⟩ | ⟨some, ⟨_, taken, refused⟩ | ⟨free, _, accepted⟩⟩ := register_cases r c
  · simp [none, refused]
  · simp [some, taken, refused]
  · simp [some, free, accepted]

/-- New names go behind those that are there. -/
theorem entries_enter (place : Nat) {names : List String} {index : Bindings Nat}
    (distinct : names.Nodup) (free : ∀ name ∈ names, name ∉ index.entries.map Prod.fst) :
    (enter place names index).entries = index.entries ++ names.map (·, place) := by
  induction names generalizing index with
  | nil => simp [enter]
  | cons name rest ih =>
    obtain ⟨once, distinct⟩ := List.nodup_cons.mp distinct
    obtain ⟨here, free⟩ := List.forall_mem_cons.mp free
    have put : (index.insert name place).entries = index.entries ++ [(name, place)] :=
      Bindings.put_of_notMem here
    show (enter place rest (index.insert name place)).entries = _
    rw [ih distinct, put, List.append_assoc, List.map_cons, List.singleton_append]
    intro other mem
    rw [put, List.map_append, List.mem_append, not_or]
    refine ⟨free other mem, fun new => once ?_⟩
    have same : other = name := List.mem_singleton.mp new
    rw [← same]
    exact mem

/-- The names of a command that is registered are in use from then on. -/
theorem names_register (ok : r.register c = .ok r') :
    r'.names = r.names ++ (folded r.fold c).schema.names := by
  obtain ⟨-, distinct, free⟩ := exists_register_iff.mp ⟨r', ok⟩
  obtain rfl := register_eq_ok ok
  simp only [names, entries_enter _ distinct free, List.map_append, List.map_map]
  exact congrArg _ (List.map_id _)

theorem mem_commands_of_find? {name : String} (found : r.find? name = some c) :
    c ∈ r.commands := by
  obtain ⟨place, -, here⟩ := Option.bind_eq_some_iff.mp found
  exact List.mem_of_getElem? here

/-! ## Coherence -/

/-- The names of commands, each with the place of its command. -/
def places (commands : List Command) : List (String × Nat) :=
  commands.zipIdx.flatMap fun entry => entry.1.schema.names.map (·, entry.2)

/-- The commands have names of their own, and the index holds these and no others. -/
structure Coherent (r : Registry) : Prop where
  named : ∀ c ∈ r.commands, c.schema.names ≠ []
  nonempty : ∀ c ∈ r.commands, ∀ name ∈ c.schema.names, name ≠ ""
  distinct : (r.commands.flatMap (·.schema.names)).Nodup
  filed : r.index.entries = places r.commands

theorem places_append_singleton (commands : List Command) (c : Command) :
    places (commands ++ [c]) = places commands ++ c.schema.names.map (·, commands.length) := by
  simp [places, List.zipIdx_append]

theorem map_fst_places (commands : List Command) :
    (places commands).map Prod.fst = commands.flatMap (·.schema.names) := by
  have own : ∀ entry : Command × Nat,
      (entry.1.schema.names.map (·, entry.2)).map Prod.fst = entry.1.schema.names := by
    intro entry
    rw [List.map_map]
    exact List.map_id _
  simp only [places, List.map_flatMap, own]
  rw [← List.flatMap_map Prod.fst fun c : Command => c.schema.names, List.zipIdx_map_fst]

theorem mem_places_iff {commands : List Command} {name : String} {place : Nat} :
    (name, place) ∈ places commands ↔
      ∃ c, commands[place]? = some c ∧ name ∈ c.schema.names := by
  simp only [places, List.mem_flatMap, List.mem_map, Prod.mk.injEq]
  constructor
  · rintro ⟨⟨c, _⟩, mem, _, has, rfl, rfl⟩
    exact ⟨c, List.mem_zipIdx_iff_getElem?.mp mem, has⟩
  · rintro ⟨c, here, has⟩
    exact ⟨(c, place), List.mem_zipIdx_iff_getElem?.mpr here, name, has, rfl, rfl⟩

theorem coherent_empty (fold : String → String) : Coherent { fold } :=
  ⟨by simp, by simp, by simp, rfl⟩

namespace Coherent

variable (h : r.Coherent)
include h

theorem names_eq : r.names = r.commands.flatMap (·.schema.names) := by
  rw [names, h.filed, map_fst_places]

theorem mem_names_iff {name : String} :
    name ∈ r.names ↔ ∃ c ∈ r.commands, name ∈ c.schema.names := by
  rw [h.names_eq, List.mem_flatMap]

/-- The index leads to the command that has the name. -/
theorem get?_eq_some_iff {name : String} {place : Nat} :
    r.index.get? name = some place ↔ ∃ c, r.commands[place]? = some c ∧ name ∈ c.schema.names := by
  have distinct : (r.index.entries.map Prod.fst).Nodup := by
    rw [h.filed, map_fst_places]
    exact h.distinct
  rw [Bindings.get?_eq_some_iff distinct, h.filed, mem_places_iff]

theorem find?_eq_some_iff {name : String} :
    r.find? name = some c ↔ c ∈ r.commands ∧ r.fold name ∈ c.schema.names := by
  simp only [find?, place?, Option.bind_eq_some_iff, h.get?_eq_some_iff]
  constructor
  · rintro ⟨place, ⟨other, here, has⟩, found⟩
    rw [here] at found
    cases found
    exact ⟨List.mem_of_getElem? here, has⟩
  · rintro ⟨mem, has⟩
    obtain ⟨place, here⟩ := List.mem_iff_getElem?.mp mem
    exact ⟨place, ⟨c, here, has⟩, here⟩

theorem names_nodup (mem : c ∈ r.commands) : c.schema.names.Nodup :=
  (List.pairwise_flatMap.mp h.distinct).1 c mem

/-- A name leads to one place. -/
theorem place_unique {i j : Nat} {d : Command} {name : String} (here : r.commands[i]? = some c)
    (there : r.commands[j]? = some d) (mine : name ∈ c.schema.names)
    (yours : name ∈ d.schema.names) : i = j := by
  have first := h.get?_eq_some_iff.mpr ⟨c, here, mine⟩
  have second := h.get?_eq_some_iff.mpr ⟨d, there, yours⟩
  rw [first] at second
  exact Option.some.inj second

/-- A registration keeps the index exact. -/
theorem register (ok : r.register c = .ok r') : r'.Coherent := by
  obtain ⟨some, distinct, free⟩ := exists_register_iff.mp ⟨r', ok⟩
  have entries := entries_enter r.commands.length distinct free
  obtain rfl := register_eq_ok ok
  constructor
  · intro d mem
    rcases List.mem_append.mp mem with old | new
    · exact h.named d old
    · rw [List.mem_singleton.mp new]
      exact some
  · intro d mem
    rcases List.mem_append.mp mem with old | new
    · exact h.nonempty d old
    · rw [List.mem_singleton.mp new]
      intro name has
      simpa using (List.mem_filter.mp has).2
  · rw [List.flatMap_append, List.flatMap_singleton, List.nodup_append]
    refine ⟨h.distinct, distinct, fun name old other new same => ?_⟩
    rw [← h.names_eq] at old
    exact free other new (same ▸ old)
  · show (enter r.commands.length _ r.index).entries = _
    rw [entries, h.filed, places_append_singleton]

end Coherent

end

/-! ## Registrations in a row -/

/-- The registry after commands were registered one after the other; those that are refused leave it
as it is. -/
def registerAll (r : Registry) (calls : List Command) : Registry :=
  calls.foldl (fun r c => (r.register c).toOption.getD r) r

/-- The commands among them that are not refused. -/
def accepted (r : Registry) : List Command → List Command
  | [] => []
  | c :: rest =>
    match r.register c with
    | .ok r' => c :: accepted r' rest
    | .error _ => accepted r rest

section

variable {r : Registry} {calls : List Command}

theorem registerAll_cons (r : Registry) (c : Command) (calls : List Command) :
    r.registerAll (c :: calls) = ((r.register c).toOption.getD r).registerAll calls :=
  rfl

/-- A refused command leaves the registry as it was. -/
theorem registerAll_of_error {c : Command} {e : RegistryError} (refused : r.register c = .error e) :
    r.registerAll (c :: calls) = r.registerAll calls := by
  rw [registerAll_cons, refused]
  rfl

theorem accepted_sublist (r : Registry) (calls : List Command) :
    (r.accepted calls).Sublist calls := by
  induction calls generalizing r with
  | nil => exact List.Sublist.slnil
  | cons c rest ih =>
    rw [accepted]
    split
    · exact (ih _).cons_cons c
    · exact (ih r).cons c

/-- Commands whose names are folded already, and differ, are all registered. -/
theorem accepted_eq_self (same : ∀ c ∈ calls, folded r.fold c = c)
    (named : ∀ c ∈ calls, c.schema.names ≠ [])
    (distinct : (r.names ++ calls.flatMap (·.schema.names)).Nodup) : r.accepted calls = calls := by
  induction calls generalizing r with
  | nil => rfl
  | cons c rest ih =>
    obtain ⟨here, same⟩ := List.forall_mem_cons.mp same
    obtain ⟨some, named⟩ := List.forall_mem_cons.mp named
    rw [List.flatMap_cons] at distinct
    obtain ⟨-, fresh, apart⟩ := List.nodup_append.mp distinct
    have free : ∀ name ∈ c.schema.names, name ∉ r.names := fun name mem taken =>
      apart name taken name (List.mem_append_left _ mem) rfl
    have ⟨r', ok⟩ : ∃ r', r.register c = .ok r' := by
      rw [exists_register_iff, here]
      exact ⟨some, (List.nodup_append.mp fresh).1, free⟩
    have names : r'.names = r.names ++ c.schema.names := by
      rw [names_register ok, here]
    have fold : r'.fold = r.fold := by
      rw [register_eq_ok ok]
    simp only [accepted, ok]
    rw [ih (fold.symm ▸ same) named (by rwa [names, List.append_assoc])]

theorem fold_registerAll (r : Registry) (calls : List Command) :
    (r.registerAll calls).fold = r.fold := by
  induction calls generalizing r with
  | nil => rfl
  | cons c rest ih =>
    rw [registerAll_cons, ih]
    cases registered : r.register c with
    | error e => rfl
    | ok r' =>
      obtain rfl := register_eq_ok registered
      rfl

/-- The commands that were not refused stand behind those that were there, in their order. -/
theorem commands_registerAll (r : Registry) (calls : List Command) :
    (r.registerAll calls).commands = r.commands ++ (r.accepted calls).map (folded r.fold) := by
  induction calls generalizing r with
  | nil => simp [registerAll, accepted]
  | cons c rest ih =>
    rw [registerAll_cons, ih, accepted]
    cases registered : r.register c with
    | error e => rfl
    | ok r' =>
      obtain rfl := register_eq_ok registered
      simp [Except.toOption]

theorem Coherent.registerAll (h : r.Coherent) (calls : List Command) :
    (r.registerAll calls).Coherent := by
  induction calls generalizing r with
  | nil => exact h
  | cons c rest ih =>
    rw [registerAll_cons]
    cases registered : r.register c with
    | error e => exact ih h
    | ok r' => exact ih (h.register registered)

/-- What leads to a command goes on to do so. -/
theorem Coherent.get?_registerAll (h : r.Coherent) (calls : List Command) {name : String}
    {place : Nat} (found : r.index.get? name = some place) :
    (r.registerAll calls).index.get? name = some place := by
  obtain ⟨c, here, has⟩ := h.get?_eq_some_iff.mp found
  refine (h.registerAll calls).get?_eq_some_iff.mpr ⟨c, ?_, has⟩
  rw [commands_registerAll, List.getElem?_append_left, here]
  exact (List.getElem?_eq_some_iff.mp here).1

theorem Coherent.find?_registerAll (h : r.Coherent) (calls : List Command) {query : String}
    {c : Command} (found : r.find? query = some c) :
    (r.registerAll calls).find? query = some c := by
  rw [h.find?_eq_some_iff] at found
  rw [(h.registerAll calls).find?_eq_some_iff, fold_registerAll, commands_registerAll]
  exact ⟨List.mem_append_left _ found.1, found.2⟩

end

/-- After any series of registrations, whatever the way to fold names, the registry holds the
commands that were not refused, in their order, with their names folded and the empty ones left
out. Each has at least one name, and no name occurs twice. The index holds these names and no
others, each with the place of its command, so a name leads to the one command that has it, folded,
and a command is found under each of its spellings that does not fold to nothing: under every one
that is not empty, if folding makes no other text empty, and so it is with lower case. None of this
is altered by what is registered later. A command is refused exactly if it has no name left, or for
its first name that is taken already, by an earlier command or by itself, and it leaves the
registry as it was. -/
theorem registrations_keep_index (fold : String → String) (calls : List Command) :
    let empty : Registry := { fold }
    let r := empty.registerAll calls
    r.commands = (empty.accepted calls).map (folded fold) ∧
    (∀ c ∈ r.commands, c.schema.names ≠ [] ∧ c.schema.names.Nodup ∧
      ∀ name ∈ c.schema.names, name ≠ "" ∧ ∃ spelling, fold spelling = name) ∧
    (∀ (i j : Nat) (c d : Command) (name : String), r.commands[i]? = some c →
      r.commands[j]? = some d → name ∈ c.schema.names → name ∈ d.schema.names → i = j) ∧
    r.names = r.commands.flatMap (·.schema.names) ∧
    (∀ name i, r.index.get? name = some i ↔
      ∃ c, r.commands[i]? = some c ∧ name ∈ c.schema.names) ∧
    (∀ query i, r.place? query = some i ↔
      ∃ c, r.commands[i]? = some c ∧ fold query ∈ c.schema.names) ∧
    (∀ query c, r.find? query = some c ↔ c ∈ r.commands ∧ fold query ∈ c.schema.names) ∧
    (∀ c ∈ empty.accepted calls, ∀ spelling ∈ c.schema.names, fold spelling ≠ "" →
      r.find? spelling = some (folded fold c)) ∧
    ((∀ s, fold s = "" → s = "") → ∀ c ∈ empty.accepted calls, ∀ spelling ∈ c.schema.names,
      spelling ≠ "" → r.find? spelling = some (folded fold c)) ∧
    (fold = Text.lowercase → ∀ c ∈ empty.accepted calls, ∀ spelling ∈ c.schema.names,
      spelling ≠ "" → r.find? spelling = some (folded fold c)) ∧
    (∀ later, r.commands <+: (r.registerAll later).commands ∧
      (∀ name i, r.index.get? name = some i → (r.registerAll later).index.get? name = some i) ∧
      ∀ query c, r.find? query = some c → (r.registerAll later).find? query = some c) ∧
    ∀ c, let names := (c.schema.names.map fold).filter (· != "")
      (r.register c = .error .noNames ↔ ∀ spelling ∈ c.schema.names, fold spelling = "") ∧
      (∀ name, r.register c = .error (.duplicate name) ↔
        ∃ before after, names = before ++ name :: after ∧
          ((∃ d ∈ r.commands, name ∈ d.schema.names) ∨ name ∈ before) ∧
          before.Nodup ∧ ∀ other ∈ before, ∀ d ∈ r.commands, other ∉ d.schema.names) ∧
      ∀ e later, r.register c = .error e → r.registerAll (c :: later) = r.registerAll later := by
  intro empty r
  have coherent : r.Coherent := (coherent_empty fold).registerAll calls
  have same : r.fold = fold := fold_registerAll empty calls
  have commands : r.commands = (empty.accepted calls).map (folded fold) :=
    commands_registerAll empty calls
  have finds : ∀ query c, r.find? query = some c ↔
      c ∈ r.commands ∧ fold query ∈ c.schema.names := by
    intro query c
    rw [coherent.find?_eq_some_iff, same]
  have found : ∀ c ∈ empty.accepted calls, ∀ spelling ∈ c.schema.names, fold spelling ≠ "" →
      r.find? spelling = some (folded fold c) := by
    intro c mem spelling written something
    rw [finds, commands]
    exact ⟨List.mem_map_of_mem mem, mem_names_folded written something⟩
  have spelled : (∀ s, fold s = "" → s = "") → ∀ c ∈ empty.accepted calls,
      ∀ spelling ∈ c.schema.names, spelling ≠ "" → r.find? spelling = some (folded fold c) :=
    fun keeps c mem spelling written something =>
      found c mem spelling written fun gone => something (keeps spelling gone)
  refine ⟨commands, ?_, ?_, coherent.names_eq, ?_, ?_, finds, found, spelled, ?_, ?_, ?_⟩
  · intro c mem
    obtain ⟨d, -, rfl⟩ := List.mem_map.mp (commands ▸ mem)
    refine ⟨coherent.named _ mem, coherent.names_nodup mem, fun name has => ?_⟩
    obtain ⟨spelling, -, spelled⟩ := List.mem_map.mp (List.mem_filter.mp has).1
    exact ⟨coherent.nonempty _ mem name has, spelling, spelled⟩
  · intro i j c d name here there mine yours
    exact coherent.place_unique here there mine yours
  · intro name i
    exact coherent.get?_eq_some_iff
  · intro query i
    rw [place?, same, coherent.get?_eq_some_iff]
  · rintro rfl
    exact spelled fun s gone => Text.lowercase_eq_empty_iff.mp gone
  · intro later
    refine ⟨?_, fun name i => coherent.get?_registerAll later, fun query c found => ?_⟩
    · rw [commands_registerAll r later]
      exact List.prefix_append _ _
    · exact coherent.find?_registerAll later found
  · intro c names
    have mine : names = (folded r.fold c).schema.names := by
      rw [same]
      rfl
    refine ⟨?_, fun name => ?_, fun e later => registerAll_of_error⟩
    · rw [register_eq_noNames_iff, same]
      simp [folded]
    · rw [register_eq_duplicate_iff, ← mine, firstTaken?_eq_some_iff]
      simp only [coherent.mem_names_iff, not_exists, not_and]

end Registry

end LineScript
