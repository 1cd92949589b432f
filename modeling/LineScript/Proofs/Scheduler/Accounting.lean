import LineScript.Proofs.Scheduler.Registration

/-!
# The accounts of batches

The members of a batch are entries of the active set, and the table of batches counts how many of
them are left. Every operation keeps the two in step, so a batch is complete from the moment on at
which its last member leaves.

* `Accounts` relates the table to the members; `memberEnded` is one member less.
* `Sound` holds of a scheduler whose table accounts for its active set. A batch that starts and
  members that leave keep it.
* `Becomes` is what any of the operations does.
-/

namespace LineScript.Scheduler

/-- The table holds the batches that have members left, each once, with the number of them. -/
structure Accounts (members : List Nat) (batches : List Batch) : Prop where
  ids_nodup : (batches.map (·.id)).Nodup
  mem_iff : ∀ b : Batch, b ∈ batches ↔ 0 < b.remaining ∧ b.remaining = members.count b.id

section Accounts

variable {members others : List Nat} {batches : List Batch} {id : Nat}

theorem Accounts.perm (h : Accounts members batches) (same : members.Perm others) :
    Accounts others batches :=
  ⟨h.ids_nodup, fun b => by rw [h.mem_iff, same.count_eq]⟩

theorem Accounts.mem_ids_iff (h : Accounts members batches) (id : Nat) :
    id ∈ batches.map (·.id) ↔ id ∈ members := by
  rw [List.mem_map, ← List.count_pos_iff]
  constructor
  · rintro ⟨b, hb, rfl⟩
    obtain ⟨positive, count⟩ := (h.mem_iff b).mp hb
    exact count ▸ positive
  · intro positive
    exact ⟨⟨id, members.count id⟩, (h.mem_iff _).mpr ⟨positive, rfl⟩, rfl⟩

theorem memberEnded_ids_sublist (batches : List Batch) (id : Nat) :
    ((memberEnded batches id).map (·.id)).Sublist (batches.map (·.id)) := by
  unfold memberEnded
  induction batches with
  | nil => exact .slnil
  | cons b rest ih =>
    by_cases mine : b.id = id
    · by_cases last : b.remaining ≤ 1
      · simpa [mine, last] using ih.cons id
      · simpa [mine, last] using ih.cons_cons id
    · simpa [mine] using ih.cons_cons b.id

/-- One member less. -/
theorem Accounts.memberEnded (h : Accounts (id :: members) batches) :
    Accounts members (memberEnded batches id) where
  ids_nodup := h.ids_nodup.sublist (memberEnded_ids_sublist batches id)
  mem_iff := by
    intro b
    unfold Scheduler.memberEnded
    rw [List.mem_filterMap]
    constructor
    -- A batch of the new table was in the old one, with one member more if it is this batch.
    · rintro ⟨old, hold, step⟩
      obtain ⟨positive, count⟩ := (h.mem_iff old).mp hold
      by_cases mine : old.id = id
      · rw [mine, List.count_cons_self] at count
        by_cases last : old.remaining ≤ 1
        · simp [mine, last] at step
        · simp only [mine, last, if_true, if_false, Option.some.injEq] at step
          subst step
          simp only
          omega
      · simp only [mine, if_false, Option.some.injEq] at step
        subst step
        rw [List.count_cons_of_ne (Ne.symm mine)] at count
        exact ⟨positive, count⟩
    · rintro ⟨positive, count⟩
      by_cases mine : b.id = id
      · refine ⟨⟨id, b.remaining + 1⟩, (h.mem_iff _).mpr ⟨Nat.succ_pos _, ?_⟩, ?_⟩
        · rw [List.count_cons_self, count, mine]
        · have more : ¬ b.remaining + 1 ≤ 1 := by omega
          simp only [more, if_true, if_false, Nat.add_sub_cancel]
          rw [← mine]
      · refine ⟨b, (h.mem_iff b).mpr ⟨positive, ?_⟩, by simp [mine]⟩
        rw [List.count_cons_of_ne (Ne.symm mine), count]

/-- Several members less, one after the other. -/
theorem Accounts.foldl_memberEnded {gone : List Active}
    (h : Accounts (gone.map (·.batch) ++ members) batches) :
    Accounts members
      (gone.foldl (fun batches entry => Scheduler.memberEnded batches entry.batch) batches) := by
  induction gone generalizing batches with
  | nil => exact h
  | cons e rest ih => exact ih h.memberEnded

/-- A new batch with its members. -/
theorem Accounts.append (h : Accounts members batches) (new : id ∉ members) {n : Nat}
    (some : 0 < n) : Accounts (members ++ List.replicate n id) (batches ++ [⟨id, n⟩]) where
  ids_nodup := by
    rw [List.map_append, List.map_singleton]
    refine h.ids_nodup.append (List.nodup_singleton id) ?_
    intro other old same
    rw [List.mem_singleton.mp same] at old
    exact new ((h.mem_ids_iff id).mp old)
  mem_iff := by
    intro b
    rw [List.mem_append, List.mem_singleton, h.mem_iff, List.count_append,
      List.count_replicate]
    constructor
    · rintro (⟨positive, count⟩ | rfl)
      · have other : b.id ≠ id := by
          intro same
          rw [same] at count
          exact new (List.count_pos_iff.mp (count ▸ positive))
        exact ⟨positive, by simp [Ne.symm other, count]⟩
      · exact ⟨some, by simp [List.count_eq_zero_of_not_mem new]⟩
    · rintro ⟨positive, count⟩
      by_cases same : b.id = id
      · rw [same, List.count_eq_zero_of_not_mem new] at count
        exact .inr (by cases b; simp_all)
      · exact .inl ⟨positive, by simpa [Ne.symm same] using count⟩

end Accounts

/-! ## The scheduler -/

/-- The registrations are in order and the table accounts for them. -/
structure Sound (s : Scheduler) : Prop extends s.Registered where
  accounts : Accounts (s.active.map (·.batch)) s.batches
  batch_pos : ∀ e ∈ s.active, 0 < e.batch
  batch_le : ∀ e ∈ s.active, e.batch ≤ s.lastBatch

/-- A member of the batch is still running. -/
def HasMember (s : Scheduler) (id : Nat) : Prop :=
  ∃ e ∈ s.active, e.batch = id

variable {s : Scheduler}

theorem Sound.empty : Sound {} :=
  { Registered.empty with
    accounts := ⟨List.nodup_nil, fun b => by simp; omega⟩
    batch_pos := by simp
    batch_le := by simp }

theorem Sound.enrolled {scripts : List (String × String)} {e : Enrolment} (h : s.Sound)
    (new : s.Enrolled scripts e) (distinct : (scripts.map Prod.fst).Nodup) :
    e.scheduler.Sound := by
  have added : ((s.newInstances scripts).map Instance.entry).map (·.batch) =
      List.replicate scripts.length (s.lastBatch + 1) := by
    rw [List.eq_replicate_iff]
    refine ⟨by simp, fun id hid => ?_⟩
    simp only [List.map_map, List.mem_map, Function.comp_apply] at hid
    obtain ⟨i, hi, rfl⟩ := hid
    exact batch_of_mem_newInstances hi
  have unused : s.lastBatch + 1 ∉ s.active.map (·.batch) := by
    intro mem
    obtain ⟨old, hold, same⟩ := List.mem_map.mp mem
    have := h.batch_le old hold
    omega
  have bounds : ∀ entry ∈ e.scheduler.active,
      0 < entry.batch ∧ entry.batch ≤ e.scheduler.lastBatch := by
    intro entry mem
    rw [new.lastBatch]
    rw [new.active, List.mem_append] at mem
    rcases mem with old | fresh
    · exact ⟨h.batch_pos entry old, Nat.le_succ_of_le (h.batch_le entry old)⟩
    · obtain ⟨i, hi, rfl⟩ := List.mem_map.mp fresh
      have := batch_of_mem_newInstances hi
      simp only [Instance.entry]
      omega
  refine { new.registered distinct h.toRegistered with
    accounts := ?_
    batch_pos := fun entry mem => (bounds entry mem).1
    batch_le := fun entry mem => (bounds entry mem).2 }
  rw [new.active, new.batches, List.map_append, added]
  by_cases none : scripts = []
  · simpa [none] using h.accounts
  · rw [if_neg none]
    exact h.accounts.append unused (List.length_pos_of_ne_nil none)

theorem Sound.without (h : s.Sound) {gone : List Active} (sub : gone.Sublist s.active) :
    (s.without gone).Sound :=
  { h.toRegistered.without with
    accounts := by
      refine Accounts.foldl_memberEnded (h.accounts.perm ?_)
      rw [← List.map_append]
      exact (perm_without h.names_nodup sub).map _
    batch_pos := fun e he => h.batch_pos e (mem_without.mp he).1
    batch_le := fun e he => h.batch_le e (mem_without.mp he).1 }

/-- What an operation makes of a scheduler: it stays as it is, a batch starts, or members leave. -/
inductive Becomes (s : Scheduler) : Scheduler → Prop where
  | same : Becomes s s
  | enrolled {scripts : List (String × String)} {e : Enrolment}
      (distinct : (scripts.map Prod.fst).Nodup) (new : s.Enrolled scripts e) :
      Becomes s e.scheduler
  | without {gone : List Active} (sub : gone.Sublist s.active) : Becomes s (s.without gone)

theorem Sound.becomes {s' : Scheduler} (h : s.Sound) (change : s.Becomes s') : s'.Sound := by
  cases change with
  | same => exact h
  | enrolled distinct new => exact h.enrolled new distinct
  | without sub => exact h.without sub

/-- Who has left does not come back. -/
theorem Departed.becomes {s' : Scheduler} {entry : Active} (left : s.Departed entry)
    (h : s.Registered) (change : s.Becomes s') : s'.Departed entry := by
  cases change with
  | same => exact left
  | enrolled distinct new => exact new.departed distinct h left
  | without _ => exact left.without h

/-- While members leave one after the other, each of them is still counted when its turn comes. -/
theorem Sound.counted (h : s.Sound) {before after : List Active} {e : Active}
    (sub : (before ++ e :: after).Sublist s.active) :
    ∃ b ∈ before.foldl (fun batches entry => memberEnded batches entry.batch) s.batches,
      b.id = e.batch ∧ 0 < b.remaining := by
  have split := (perm_without h.names_nodup sub).map (·.batch)
  rw [List.append_assoc, List.map_append] at split
  have left := (h.accounts.perm split).foldl_memberEnded
  obtain ⟨b, hb, same⟩ := List.mem_map.mp ((left.mem_ids_iff e.batch).mpr (by simp))
  exact ⟨b, hb, same, ((left.mem_iff b).mp hb).1⟩

/-- A batch is complete when it was started and no member is left. -/
theorem Sound.isComplete_iff (h : s.Sound) (id : Nat) :
    s.isComplete id = true ↔ 0 < id ∧ id ≤ s.lastBatch ∧ ¬ s.HasMember id := by
  have listed : (∃ b ∈ s.batches, b.id = id) ↔ s.HasMember id := by
    simpa [HasMember] using h.accounts.mem_ids_iff id
  rw [← listed]
  simp [isComplete, Nat.succ_le_iff, and_assoc]

end LineScript.Scheduler
