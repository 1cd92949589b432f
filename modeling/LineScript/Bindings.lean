/-!
# Bindings

A finite map from names to values. Entries are kept in the order in which their names were first
bound; whatever is shown is sorted by name. Looking a name up is the only view that the lemmas
here use.
-/

namespace LineScript

structure Bindings (α : Type) where
  entries : List (String × α) := []

namespace Bindings

variable {α : Type}

def get? (b : Bindings α) (name : String) : Option α :=
  b.entries.lookup name

def contains (b : Bindings α) (name : String) : Bool :=
  (b.get? name).isSome

/-- The entries with `name` bound to `value`: in place if it was bound, else at the end. -/
def put (name : String) (value : α) : List (String × α) → List (String × α)
  | [] => [(name, value)]
  | entry :: rest =>
    if entry.1 = name then (name, value) :: rest else entry :: put name value rest

def insert (b : Bindings α) (name : String) (value : α) : Bindings α :=
  ⟨put name value b.entries⟩

def erase (b : Bindings α) (name : String) : Bindings α :=
  ⟨b.entries.filter (·.1 != name)⟩

/-- The entries by ascending name. -/
def sorted (b : Bindings α) : List (String × α) :=
  b.entries.mergeSort fun x y => decide (x.1 ≤ y.1)

/-- The bound names, ascending. -/
def names (b : Bindings α) : List String :=
  b.sorted.map Prod.fst

def size (b : Bindings α) : Nat :=
  b.entries.length

/-- Bind the entries one after the other; a later one replaces an earlier one. -/
def ofList (entries : List (String × α)) : Bindings α :=
  entries.foldl (fun b entry => b.insert entry.1 entry.2) {}

theorem lookup_put (name key : String) (value : α) (entries : List (String × α)) :
    (put name value entries).lookup key =
      if key = name then some value else entries.lookup key := by
  induction entries with
  | nil => grind [put]
  | cons entry rest ih => grind [put]

theorem get?_insert (b : Bindings α) (name key : String) (value : α) :
    (b.insert name value).get? key = if key = name then some value else b.get? key :=
  lookup_put name key value b.entries

@[simp] theorem get?_insert_self (b : Bindings α) (name : String) (value : α) :
    (b.insert name value).get? name = some value := by
  simp [get?_insert]

theorem get?_erase (b : Bindings α) (name key : String) :
    (b.erase name).get? key = if key = name then none else b.get? key := by
  obtain ⟨entries⟩ := b
  simp only [get?, erase]
  induction entries with
  | nil => simp
  | cons entry rest ih => grind

end Bindings

end LineScript
