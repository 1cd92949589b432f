import LineScript.Script.Scheduler
import Mathlib.Data.List.Nodup
import Mathlib.Data.List.Range

/-!
# What the operations of the scheduler do

One description for each operation. `Enrolled` says what a batch adds, and `without` is what both
ways to leave come to: `finish` takes one entry out and `stop` takes out those it is told to.
Everything else about the scheduler is derived from these descriptions.
-/

namespace LineScript.Scheduler

theorem isActive_iff {s : Scheduler} {name : String} :
    s.isActive name = true ↔ name ∈ s.names := by
  simp [isActive, names]

/-! ## Who is current -/

/-- In a set of distinct names an entry is known by its name. -/
theorem eq_of_name_eq {s : Scheduler} (distinct : s.names.Nodup) {e f : Active}
    (he : e ∈ s.active) (hf : f ∈ s.active) (same : e.name = f.name) : e = f :=
  List.inj_on_of_nodup_map distinct he hf same

theorem isCurrent_iff {s : Scheduler} (distinct : s.names.Nodup) {name : String}
    {generation : Nat} : s.isCurrent name generation = true ↔
      ∃ e ∈ s.active, e.name = name ∧ e.generation = generation := by
  unfold isCurrent
  constructor
  · intro h
    cases found : s.active.find? (·.name == name) with
    | none => simp [found] at h
    | some e =>
      rw [found] at h
      exact ⟨e, List.mem_of_find?_eq_some found, by simpa using List.find?_some found,
        by simpa using h⟩
  · rintro ⟨e, he, rfl, rfl⟩
    cases found : s.active.find? (·.name == e.name) with
    | none => exact absurd (List.find?_eq_none.mp found e he) (by simp)
    | some f =>
      have same : f = e := eq_of_name_eq distinct (List.mem_of_find?_eq_some found) he
        (by simpa using List.find?_some found)
      simp [same]

/-! ## A batch starts -/

/-- The instances that a batch of scripts becomes. -/
def newInstances (s : Scheduler) (scripts : List (String × String)) : List Instance :=
  scripts.mapIdx fun i script =>
    Instance.ofText script.1 script.2 (s.nextGeneration + i) (s.lastBatch + 1)

@[simp] theorem newInstances_nil (s : Scheduler) : s.newInstances [] = [] := rfl

@[simp] theorem length_newInstances (s : Scheduler) (scripts : List (String × String)) :
    (s.newInstances scripts).length = scripts.length := by
  simp [newInstances]

theorem newInstances_names (s : Scheduler) (scripts : List (String × String)) :
    (s.newInstances scripts).map (·.name) = scripts.map Prod.fst := by
  apply List.ext_getElem
  · simp
  · intro i _ _
    simp [newInstances, Instance.ofText]

theorem newInstances_generations (s : Scheduler) (scripts : List (String × String)) :
    (s.newInstances scripts).map (·.generation) =
      List.range' s.nextGeneration scripts.length := by
  apply List.ext_getElem
  · simp
  · intro i _ _
    simp [newInstances, Instance.ofText]

theorem newInstances_entry_generations (s : Scheduler) (scripts : List (String × String)) :
    ((s.newInstances scripts).map Instance.entry).map (·.generation) =
      List.range' s.nextGeneration scripts.length := by
  rw [← newInstances_generations, List.map_map]
  rfl

theorem newInstances_entries (s : Scheduler) (scripts : List (String × String)) :
    (s.newInstances scripts).map Instance.entry =
      (scripts.map Prod.fst).mapIdx fun i name =>
        ⟨name, s.nextGeneration + i, s.lastBatch + 1⟩ := by
  apply List.ext_getElem
  · simp
  · intro i _ _
    simp [newInstances, Instance.ofText, Instance.entry]

theorem batch_of_mem_newInstances {s : Scheduler} {scripts : List (String × String)}
    {i : Instance} (h : i ∈ s.newInstances scripts) : i.batch = s.lastBatch + 1 := by
  obtain ⟨k, hk, rfl⟩ := List.mem_iff_getElem.mp h
  simp [newInstances, Instance.ofText]

theorem locals_of_mem_newInstances {s : Scheduler} {scripts : List (String × String)} {i : Instance}
    (h : i ∈ s.newInstances scripts) : i.locals = {} := by
  obtain ⟨k, hk, rfl⟩ := List.mem_iff_getElem.mp h
  simp [newInstances, Instance.ofText]

theorem generation_of_mem_newInstances {s : Scheduler} {scripts : List (String × String)}
    {i : Instance} (h : i ∈ s.newInstances scripts) :
    s.nextGeneration ≤ i.generation ∧ i.generation < s.nextGeneration + scripts.length := by
  have mem : i.generation ∈ (s.newInstances scripts).map (·.generation) :=
    List.mem_map_of_mem h
  rw [newInstances_generations] at mem
  simpa using mem

theorem register_eq_append {entry : Active} {active : List Active}
    (new : entry.name ∉ active.map (·.name)) : register entry active = active ++ [entry] := by
  induction active with
  | nil => rfl
  | cons other rest ih =>
    simp only [List.map_cons, List.mem_cons, not_or] at new
    rw [register, if_neg (Ne.symm new.1), ih new.2, List.cons_append]

theorem foldl_register_eq_append {entries active : List Active}
    (distinct : (entries.map (·.name)).Nodup)
    (new : ∀ e ∈ entries, e.name ∉ active.map (·.name)) :
    entries.foldl (fun active entry => register entry active) active = active ++ entries := by
  induction entries generalizing active with
  | nil => simp
  | cons entry rest ih =>
    rw [List.map_cons, List.nodup_cons] at distinct
    rw [List.foldl_cons, register_eq_append (new entry (by simp)), ih distinct.2]
    · simp
    · intro e he
      have other : e.name ≠ entry.name :=
        fun same => distinct.1 (same ▸ List.mem_map_of_mem he)
      simpa [other] using new e (by simp [he])

/-- What a batch that starts adds to the scheduler. -/
structure Enrolled (s : Scheduler) (scripts : List (String × String)) (e : Enrolment) :
    Prop where
  free : ∀ name ∈ scripts.map Prod.fst, name ∉ s.names
  batch : e.batch = s.lastBatch + 1
  names : e.names = scripts.map Prod.fst
  instances : e.instances = s.newInstances scripts
  active : e.scheduler.active = s.active ++ (s.newInstances scripts).map Instance.entry
  batches : e.scheduler.batches =
    s.batches ++ if scripts = [] then [] else [⟨s.lastBatch + 1, scripts.length⟩]
  lastBatch : e.scheduler.lastBatch = s.lastBatch + 1
  nextGeneration : e.scheduler.nextGeneration = s.nextGeneration + scripts.length
  messages : e.messages = if scripts = [] then [] else [e.scheduler.announcement]

theorem enroll_ok {s : Scheduler} {scripts : List (String × String)} {e : Enrolment}
    (distinct : (scripts.map Prod.fst).Nodup) (h : s.enroll scripts = .ok e) :
    s.Enrolled scripts e := by
  cases found : (scripts.map Prod.fst).find? s.isActive with
  | some name => simp only [enroll, found, reduceCtorEq] at h
  | none =>
    have free : ∀ name ∈ scripts.map Prod.fst, name ∉ s.names := by
      intro name hn active
      exact List.find?_eq_none.mp found name hn (isActive_iff.mpr active)
    by_cases empty : scripts = []
    · subst empty
      cases h
      constructor <;> simp
    · simp only [enroll, found, List.isEmpty_iff, if_neg empty] at h
      cases h
      have appended : ((s.newInstances scripts).map Instance.entry).foldl
          (fun active entry => register entry active) s.active =
          s.active ++ (s.newInstances scripts).map Instance.entry := by
        refine foldl_register_eq_append ?_ ?_
        · simpa [Function.comp_def, Instance.entry, newInstances_names] using distinct
        · intro e he
          obtain ⟨i, hi, rfl⟩ := List.mem_map.mp he
          apply free
          rw [← newInstances_names]
          exact List.mem_map_of_mem (f := (·.name)) hi
      exact
        { free
          batch := rfl
          names := rfl
          instances := rfl
          active := appended
          batches := by simp [empty]
          lastBatch := rfl
          nextGeneration := rfl
          messages := by simp [empty] }

/-- A batch of none changes no more than the count of batches. -/
theorem Enrolled.scheduler_of_nil {s : Scheduler} {e : Enrolment} (h : s.Enrolled [] e) :
    e.scheduler = { s with lastBatch := s.lastBatch + 1 } := by
  have active := h.active
  have batches := h.batches
  have lastBatch := h.lastBatch
  have nextGeneration := h.nextGeneration
  cases next : e.scheduler
  simp_all

theorem enroll_eq_error_iff {s : Scheduler} {scripts : List (String × String)}
    {err : StartError} : s.enroll scripts = .error err ↔
      ∃ name, (scripts.map Prod.fst).find? s.isActive = some name ∧
        err = .alreadyActive name := by
  cases found : (scripts.map Prod.fst).find? s.isActive with
  | some name => simp only [enroll, found, Except.error.injEq, Option.some.injEq,
      exists_eq_left', eq_comm]
  | none =>
    by_cases empty : scripts.isEmpty = true <;>
      simp only [enroll, found, empty, reduceCtorEq, false_and, exists_false, if_true, if_false]

/-! ## Members leave -/

/-- The scheduler without some entries; their batches are told. -/
def without (s : Scheduler) (gone : List Active) : Scheduler :=
  { s with
    active := s.active.filter fun entry => !gone.any (·.name == entry.name)
    batches := gone.foldl (fun batches entry => memberEnded batches entry.batch) s.batches }

@[simp] theorem without_nil (s : Scheduler) : s.without [] = s := by
  simp [without]

theorem mem_without {s : Scheduler} {gone : List Active} {e : Active} :
    e ∈ (s.without gone).active ↔ e ∈ s.active ∧ ∀ g ∈ gone, g.name ≠ e.name := by
  simp [without]

theorem finish_of_current {s : Scheduler} {i : Instance}
    (h : s.isCurrent i.name i.generation = true) :
    s.finish i = (s.without [i.entry], [(s.without [i.entry]).announcement]) := by
  rw [finish, if_pos h]
  rfl

theorem finish_of_not_current {s : Scheduler} {i : Instance}
    (h : s.isCurrent i.name i.generation = false) : s.finish i = (s, []) := by
  simp [finish, h]

theorem stop_of_hit {s : Scheduler} {target : StopTarget} (hit : s.targeted target ≠ []) :
    s.stop target =
      { scheduler := s.without (s.targeted target)
        names := (s.targeted target).map (·.name)
        messages := [(s.without (s.targeted target)).announcement] } := by
  rw [stop, if_neg (by simpa using hit)]
  rfl

theorem stop_of_miss {s : Scheduler} {target : StopTarget} (miss : s.targeted target = []) :
    s.stop target = { scheduler := s, names := [], messages := [] } := by
  simp [stop, miss]

theorem stop_scheduler (s : Scheduler) (target : StopTarget) :
    (s.stop target).scheduler = s.without (s.targeted target) := by
  by_cases miss : s.targeted target = []
  · rw [stop_of_miss miss, miss, without_nil]
  · rw [stop_of_hit miss]

theorem targeted_sublist (s : Scheduler) (target : StopTarget) :
    (s.targeted target).Sublist s.active := by
  cases target with
  | all => exact List.Sublist.refl _
  | named name => exact List.filter_sublist

/-- Those who leave and those who stay are all there were. -/
theorem perm_without {s : Scheduler} (distinct : s.names.Nodup) {gone : List Active}
    (sub : gone.Sublist s.active) : s.active.Perm (gone ++ (s.without gone).active) := by
  have nodup : s.active.Nodup := distinct.of_map _
  have apart : gone.Disjoint (s.without gone).active := by
    intro e hg hs
    exact (mem_without.mp hs).2 e hg rfl
  have nodup' : (gone ++ (s.without gone).active).Nodup :=
    List.Nodup.append (nodup.sublist sub) (nodup.filter _) apart
  refine (List.perm_ext_iff_of_nodup nodup nodup').mpr fun e => ?_
  rw [List.mem_append, mem_without]
  constructor
  · intro he
    by_cases out : ∃ g ∈ gone, g.name = e.name
    · obtain ⟨g, hg, same⟩ := out
      exact .inl (eq_of_name_eq distinct (sub.subset hg) he same ▸ hg)
    · exact .inr ⟨he, fun g hg same => out ⟨g, hg, same⟩⟩
  · rintro (hg | ⟨he, -⟩)
    · exact sub.subset hg
    · exact he

end LineScript.Scheduler
