import LineScript.Proofs.Scheduler.Operations

/-!
# Registrations

Each name is registered once, and the generations ascend in the order of the start. So a
generation tells the runs of a script apart: an instance that has left is not current any more,
whoever takes its name later.

* `Registered` holds of every scheduler that its operations lead to.
* `Knows` ties an instance that was handed out to its registration.
* `Departed` says that an instance has left. No operation makes it come back.
-/

namespace LineScript.Scheduler

/-- The entries have names of their own, and generations that ascend and were handed out. -/
structure Registered (s : Scheduler) : Prop where
  names_nodup : s.names.Nodup
  ascending : (s.active.map (·.generation)).Pairwise (· < ·)
  generation_lt : ∀ e ∈ s.active, e.generation < s.nextGeneration

/-- The instance was handed out: if an entry has its generation, it is the entry of this very
instance. -/
structure Knows (s : Scheduler) (i : Instance) : Prop where
  generation_lt : i.generation < s.nextGeneration
  entry_eq : ∀ e ∈ s.active, e.generation = i.generation → e = i.entry

/-- The generation of the entry was handed out, and is not registered with its name any more. -/
structure Departed (s : Scheduler) (entry : Active) : Prop where
  generation_lt : entry.generation < s.nextGeneration
  not_current : s.isCurrent entry.name entry.generation = false

variable {s : Scheduler} {i j : Instance} {entry : Active}

theorem Registered.empty : Registered {} :=
  ⟨List.nodup_nil, List.Pairwise.nil, by simp⟩

/-- A generation is registered once. -/
theorem Registered.eq_of_generation_eq (h : s.Registered) {e f : Active}
    (he : e ∈ s.active) (hf : f ∈ s.active) (same : e.generation = f.generation) : e = f :=
  List.inj_on_of_nodup_map (h.ascending.imp Nat.ne_of_lt) he hf same

theorem Registered.isCurrent_eq_false_iff (h : s.Registered) {name : String} {generation : Nat} :
    s.isCurrent name generation = false ↔
      ∀ e ∈ s.active, e.name = name → e.generation ≠ generation := by
  rw [← Bool.not_eq_true, isCurrent_iff h.names_nodup]
  simp

theorem Knows.isCurrent_iff (known : s.Knows i) (h : s.Registered) :
    s.isCurrent i.name i.generation = true ↔ i.entry ∈ s.active := by
  rw [Scheduler.isCurrent_iff h.names_nodup]
  constructor
  · rintro ⟨e, he, -, same⟩
    exact known.entry_eq e he same ▸ he
  · intro he
    exact ⟨i.entry, he, rfl, rfl⟩

theorem Knows.congr (same : j.entry = i.entry) (known : s.Knows i) : s.Knows j := by
  have generation : j.generation = i.generation := congrArg Active.generation same
  exact ⟨generation ▸ known.generation_lt, by rw [generation, same]; exact known.entry_eq⟩

/-! ## A batch starts -/

section Enrolled

variable {scripts : List (String × String)} {e : Enrolment}

theorem Enrolled.names_eq (h : s.Enrolled scripts e) :
    e.scheduler.names = s.names ++ scripts.map Prod.fst := by
  rw [← newInstances_names s scripts, Scheduler.names, h.active, List.map_append, List.map_map]
  rfl

theorem Enrolled.registered (new : s.Enrolled scripts e) (distinct : (scripts.map Prod.fst).Nodup)
    (h : s.Registered) : e.scheduler.Registered where
  names_nodup := by
    rw [new.names_eq]
    exact h.names_nodup.append distinct fun name old added => new.free name added old
  ascending := by
    rw [new.active, List.map_append, newInstances_entry_generations, List.pairwise_append]
    refine ⟨h.ascending, List.pairwise_lt_range', ?_⟩
    intro a ha b hb
    obtain ⟨old, hold, rfl⟩ := List.mem_map.mp ha
    have := h.generation_lt old hold
    simp only [List.mem_range'_1] at hb
    omega
  generation_lt := by
    intro entry mem
    rw [new.nextGeneration]
    rw [new.active, List.mem_append] at mem
    rcases mem with old | added
    · exact Nat.lt_of_lt_of_le (h.generation_lt entry old) (Nat.le_add_right ..)
    · obtain ⟨i, hi, rfl⟩ := List.mem_map.mp added
      exact (generation_of_mem_newInstances hi).2

/-- An entry of a generation that was handed out before is not a new one. -/
theorem Enrolled.mem_of_generation_lt (new : s.Enrolled scripts e) {entry : Active}
    (mem : entry ∈ e.scheduler.active) (old : entry.generation < s.nextGeneration) :
    entry ∈ s.active := by
  rw [new.active, List.mem_append] at mem
  rcases mem with mem | added
  · exact mem
  · obtain ⟨i, hi, rfl⟩ := List.mem_map.mp added
    exact absurd (generation_of_mem_newInstances hi).1 (Nat.not_le_of_lt old)

theorem Enrolled.knows (new : s.Enrolled scripts e) (known : s.Knows i) :
    e.scheduler.Knows i where
  generation_lt := by
    rw [new.nextGeneration]
    exact Nat.lt_of_lt_of_le known.generation_lt (Nat.le_add_right ..)
  entry_eq := by
    intro entry mem same
    exact known.entry_eq entry (new.mem_of_generation_lt mem (same ▸ known.generation_lt)) same

theorem Enrolled.knows_new (new : s.Enrolled scripts e)
    (distinct : (scripts.map Prod.fst).Nodup) (h : s.Registered)
    (hi : i ∈ s.newInstances scripts) : e.scheduler.Knows i where
  generation_lt := by
    rw [new.nextGeneration]
    exact (generation_of_mem_newInstances hi).2
  entry_eq := by
    intro entry mem same
    have mine : i.entry ∈ e.scheduler.active := by
      rw [new.active]
      exact List.mem_append_right _ (List.mem_map_of_mem hi)
    exact (new.registered distinct h).eq_of_generation_eq mem mine same

theorem Enrolled.departed (new : s.Enrolled scripts e) (distinct : (scripts.map Prod.fst).Nodup)
    (h : s.Registered) (gone : s.Departed entry) : e.scheduler.Departed entry where
  generation_lt := by
    rw [new.nextGeneration]
    exact Nat.lt_of_lt_of_le gone.generation_lt (Nat.le_add_right ..)
  not_current := by
    rw [(new.registered distinct h).isCurrent_eq_false_iff]
    intro other mem name same
    have old := new.mem_of_generation_lt mem (same ▸ gone.generation_lt)
    exact h.isCurrent_eq_false_iff.mp gone.not_current other old name same

end Enrolled

/-! ## Members leave -/

section Without

variable {gone : List Active}

theorem Registered.without (h : s.Registered) : (s.without gone).Registered where
  names_nodup := h.names_nodup.sublist (List.filter_sublist.map _)
  ascending := h.ascending.sublist (List.filter_sublist.map _)
  generation_lt := fun e he => h.generation_lt e (mem_without.mp he).1

theorem Knows.without (known : s.Knows i) : (s.without gone).Knows i :=
  ⟨known.generation_lt, fun e he => known.entry_eq e (mem_without.mp he).1⟩

theorem Departed.without (left : s.Departed entry) (h : s.Registered) :
    (s.without gone).Departed entry := by
  refine ⟨left.generation_lt, ?_⟩
  rw [h.without.isCurrent_eq_false_iff]
  intro e he
  exact h.isCurrent_eq_false_iff.mp left.not_current e (mem_without.mp he).1

/-- A finish takes out the entry of the instance, if it is there. -/
theorem finish_cases (s : Scheduler) (i : Instance) :
    (s.isCurrent i.name i.generation = true ∧ (s.finish i).1 = s.without [i.entry]) ∨
      (s.isCurrent i.name i.generation = false ∧ (s.finish i).1 = s) := by
  cases current : s.isCurrent i.name i.generation with
  | true => exact .inl ⟨rfl, by rw [finish_of_current current]⟩
  | false => exact .inr ⟨rfl, by rw [finish_of_not_current current]⟩

/-- Whatever a finish finds, the instance is not current after it. -/
theorem finish_not_current (h : s.Registered) :
    (s.finish i).1.isCurrent i.name i.generation = false := by
  rcases finish_cases s i with ⟨-, eq⟩ | ⟨stale, eq⟩
  · rw [eq, h.without.isCurrent_eq_false_iff]
    intro e he name
    exact absurd name.symm ((mem_without.mp he).2 i.entry (by simp))
  · rw [eq]
    exact stale

end Without

end LineScript.Scheduler
