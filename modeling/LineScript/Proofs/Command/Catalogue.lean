import LineScript.Proofs.Command.Conduct

/-!
# The catalogue of commands

The names of the builtin commands are folded already, and differ, so they are all registered, as
they are and in their order (`Registry.commands_standard`). A host may register others. They go
behind the builtin commands, under names that were free, and so a builtin command is found by its
names all the same (`Registry.HoldsBuiltins.find?`).
-/

namespace LineScript

namespace Registry

theorem folded_builtin : ∀ b ∈ builtins, folded Text.lowercase b = b := by
  intro b builtin
  have names := folded_names b builtin
  simp only [folded] at names ⊢
  rw [names]

/-- No two names of the builtin commands are the same. -/
theorem builtin_names_nodup : (builtins.flatMap (·.schema.names)).Nodup := by
  decide +kernel

theorem builtin_names_ne_nil : ∀ b ∈ builtins, b.schema.names ≠ [] := by
  decide +kernel

/-- The commands of the standard registry are the builtin ones. -/
theorem commands_standard : standard.commands = builtins := by
  have all : accepted {} builtins = builtins :=
    accepted_eq_self (r := {}) folded_builtin builtin_names_ne_nil builtin_names_nodup
  have commands := commands_registerAll {} builtins
  rw [all, List.map_congr_left folded_builtin, List.map_id'] at commands
  exact commands

theorem standard_coherent : standard.Coherent :=
  (coherent_empty _).registerAll builtins

/-- A registry that holds commands as they are, whatever their names. -/
def catalogue (commands : List Command) : Registry :=
  { commands, index := ⟨places commands⟩ }

/-- The standard registry without the registrations. To look a name up in it is cheap: nothing is
compared to find out whether the builtin commands differ. -/
theorem standard_eq_catalogue : standard = catalogue builtins := by
  have fold : standard.fold = Text.lowercase := fold_registerAll {} builtins
  have commands := commands_standard
  have filed := standard_coherent.filed
  rw [commands] at filed
  generalize standard = r at fold commands filed ⊢
  obtain ⟨_, _, ⟨_⟩⟩ := r
  cases fold
  cases commands
  cases filed
  rfl

/-- What the standard registry finds is a builtin command. -/
theorem mem_builtins_of_find? {name : String} {c : Command}
    (found : standard.find? name = some c) : c ∈ builtins :=
  commands_standard ▸ mem_commands_of_find? found

/-! ## Other commands behind the builtin ones -/

/-- The registry has the builtin commands in front, and its index is exact. -/
structure HoldsBuiltins (r : Registry) : Prop where
  fold_eq : r.fold = Text.lowercase
  first : builtins <+: r.commands
  coherent : r.Coherent

theorem standard_holdsBuiltins : standard.HoldsBuiltins where
  fold_eq := fold_registerAll {} builtins
  first := by
    rw [commands_standard]
  coherent := standard_coherent

namespace HoldsBuiltins

variable {r : Registry}

/-- A host that registers a command does not hide a builtin one. -/
theorem register (h : r.HoldsBuiltins) {c : Command} {r' : Registry} (ok : r.register c = .ok r') :
    r'.HoldsBuiltins := by
  have coherent := h.coherent.register ok
  obtain rfl := register_eq_ok ok
  exact ⟨h.fold_eq, h.first.trans (List.prefix_append _ _), coherent⟩

/-- A builtin command goes by its names, in any case. -/
theorem find? (h : r.HoldsBuiltins) {b : Command} (builtin : b ∈ builtins) {name : String}
    (mem : Text.lowercase name ∈ b.schema.names) : r.find? name = some b := by
  rw [h.coherent.find?_eq_some_iff, h.fold_eq]
  exact ⟨h.first.subset builtin, mem⟩

end HoldsBuiltins

end Registry

end LineScript
