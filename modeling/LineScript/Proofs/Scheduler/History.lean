import LineScript.Proofs.Scheduler.Accounting

/-!
# Histories of a scheduler

A history is a scheduler with all the instances that it has handed out. Its events are those that
a scheduler can meet: batches of distinct names, stops, and ends of instances that were handed
out, however long ago and however often. In every history the table of batches accounts for the
active set, so a batch is complete from the very event on that takes its last member out.

A workspace removes in three steps, with the announcement before the batches are told; what its
`finish` and `stop` leave of the scheduler is what is left here (`Workspace.finish_eq`,
`Workspace.stop_eq`).
-/

namespace LineScript.Scheduler

/-- What a scheduler can be told. -/
inductive Event where
  /-- Start a batch. -/
  | enroll (scripts : List (String × String))
  /-- The instance has ended by itself. -/
  | finish (i : Instance)
  | stop (target : StopTarget)

structure History where
  scheduler : Scheduler := {}
  /-- The instances that were ever handed out, in order. -/
  handed : List Instance := []

namespace History

/-- The history with one more event. A batch that is refused leaves no trace. -/
def next (h : History) : Event → History
  | .enroll scripts =>
    match h.scheduler.enroll scripts with
    | .ok e => ⟨e.scheduler, h.handed ++ e.instances⟩
    | .error _ => h
  | .finish i => ⟨(h.scheduler.finish i).1, h.handed⟩
  | .stop target => ⟨(h.scheduler.stop target).scheduler, h.handed⟩

/-- The event can happen: a batch has distinct names, and who ends was handed out. In the
meantime the instance may have moved on through its lines. -/
def Allows (h : History) : Event → Prop
  | .enroll scripts => (scripts.map Prod.fst).Nodup
  | .finish i => ∃ j ∈ h.handed, i.entry = j.entry
  | .stop _ => True

/-- Any number of events, one after the other. -/
inductive Leads (h : History) : History → Prop where
  | refl : Leads h h
  | next {k : History} {event : Event} : Leads h k → k.Allows event → Leads h (k.next event)

/-- The history of a scheduler from its beginning. -/
def Reachable (h : History) : Prop :=
  Leads {} h

/-- The entries that an event takes out of the active set. -/
def leaving (h : History) : Event → List Active
  | .enroll _ => []
  | .finish i => if h.scheduler.isCurrent i.name i.generation then [i.entry] else []
  | .stop target => h.scheduler.targeted target

/-- The scheduler is sound, and each instance is known to it under a generation of its own. -/
structure Sound (h : History) : Prop where
  scheduler : h.scheduler.Sound
  knows : ∀ i ∈ h.handed, h.scheduler.Knows i
  ascending : (h.handed.map (·.generation)).Pairwise (· < ·)
  batch_le : ∀ i ∈ h.handed, i.batch ≤ h.scheduler.lastBatch

variable {h k : History} {event : Event}

/-- Who leaves was there. -/
theorem leaving_sublist (sound : h.Sound) (allowed : h.Allows event) :
    (h.leaving event).Sublist h.scheduler.active := by
  cases event with
  | enroll scripts => exact List.nil_sublist _
  | finish i =>
    cases current : h.scheduler.isCurrent i.name i.generation with
    | true =>
      obtain ⟨j, hj, same⟩ := allowed
      have known := (sound.knows j hj).congr same
      have mem := (known.isCurrent_iff sound.scheduler.toRegistered).mp current
      simpa [leaving, current] using mem
    | false => simp [leaving, current]
  | stop target => exact targeted_sublist _ _

theorem next_eq_without (notEnroll : ∀ scripts, event ≠ .enroll scripts) :
    h.next event = ⟨h.scheduler.without (h.leaving event), h.handed⟩ := by
  cases event with
  | enroll scripts => exact absurd rfl (notEnroll scripts)
  | finish i =>
    rcases finish_cases h.scheduler i with ⟨current, eq⟩ | ⟨stale, eq⟩
    · simp only [next, leaving, current, eq, if_true]
    · simp [next, leaving, stale, eq]
  | stop target => simp only [next, leaving, stop_scheduler]

/-- What an event can do: nothing, if it is a batch that is refused, start a batch, or take
members out. -/
theorem next_cases (sound : h.Sound) (allowed : h.Allows event) :
    h.next event = h ∨
      (∃ scripts e, event = .enroll scripts ∧ (scripts.map Prod.fst).Nodup ∧
        h.scheduler.Enrolled scripts e ∧
        h.next event = ⟨e.scheduler, h.handed ++ h.scheduler.newInstances scripts⟩) ∨
      ((h.leaving event).Sublist h.scheduler.active ∧
        h.next event = ⟨h.scheduler.without (h.leaving event), h.handed⟩) := by
  cases event with
  | enroll scripts =>
    cases outcome : h.scheduler.enroll scripts with
    | error err => exact .inl (by simp only [next, outcome])
    | ok e =>
      have new := enroll_ok allowed outcome
      refine .inr (.inl ⟨scripts, e, rfl, allowed, new, ?_⟩)
      simp only [next, outcome, new.instances]
  | finish i => exact .inr (.inr ⟨leaving_sublist sound allowed, next_eq_without (by simp)⟩)
  | stop target => exact .inr (.inr ⟨leaving_sublist sound allowed, next_eq_without (by simp)⟩)

/-- The new instances of a batch join those that were handed out before. -/
theorem Sound.enrolled (sound : h.Sound) {scripts : List (String × String)} {e : Enrolment}
    (distinct : (scripts.map Prod.fst).Nodup) (new : h.scheduler.Enrolled scripts e) :
    Sound ⟨e.scheduler, h.handed ++ h.scheduler.newInstances scripts⟩ := by
  refine ⟨sound.scheduler.enrolled new distinct, ?_, ?_, ?_⟩
  · intro i mem
    rcases List.mem_append.mp mem with old | added
    · exact new.knows (sound.knows i old)
    · exact new.knows_new distinct sound.scheduler.toRegistered added
  · rw [List.map_append, newInstances_generations, List.pairwise_append]
    refine ⟨sound.ascending, List.pairwise_lt_range', ?_⟩
    intro a ha b hb
    obtain ⟨i, hi, rfl⟩ := List.mem_map.mp ha
    have := (sound.knows i hi).generation_lt
    simp only [List.mem_range'_1] at hb
    omega
  · intro i mem
    rw [new.lastBatch]
    rcases List.mem_append.mp mem with old | added
    · exact Nat.le_succ_of_le (sound.batch_le i old)
    · exact Nat.le_of_eq (batch_of_mem_newInstances added)

theorem Sound.without (sound : h.Sound) {gone : List Active}
    (sub : gone.Sublist h.scheduler.active) : Sound ⟨h.scheduler.without gone, h.handed⟩ :=
  ⟨sound.scheduler.without sub, fun i hi => (sound.knows i hi).without, sound.ascending,
    sound.batch_le⟩

theorem Sound.next (sound : h.Sound) (allowed : h.Allows event) : (h.next event).Sound := by
  rcases next_cases sound allowed with eq | ⟨scripts, e, -, distinct, new, eq⟩ | ⟨sub, eq⟩
  · rw [eq]
    exact sound
  · rw [eq]
    exact sound.enrolled distinct new
  · rw [eq]
    exact sound.without sub

theorem Sound.leads (sound : h.Sound) (leads : h.Leads k) : k.Sound := by
  induction leads with
  | refl => exact sound
  | next _ allowed ih => exact ih.next allowed

theorem Reachable.sound (reach : h.Reachable) : h.Sound :=
  Sound.leads ⟨Sound.empty, by simp, List.Pairwise.nil, by simp⟩ reach

/-! ## Completion -/

/-- The event makes the batch complete, which it was not before. -/
def Completes (h : History) (event : Event) (id : Nat) : Prop :=
  h.scheduler.isComplete id = false ∧ (h.next event).scheduler.isComplete id = true

theorem next_lastBatch_le (sound : h.Sound) (allowed : h.Allows event) :
    h.scheduler.lastBatch ≤ (h.next event).scheduler.lastBatch := by
  rcases next_cases sound allowed with eq | ⟨scripts, e, -, -, new, eq⟩ | ⟨-, eq⟩
  · rw [eq]
  · rw [eq, new.lastBatch]
    exact Nat.le_succ _
  · rw [eq]
    exact Nat.le_refl _

/-- A batch that was started before gains no members. -/
theorem hasMember_of_next (sound : h.Sound) (allowed : h.Allows event) {id : Nat}
    (started : id ≤ h.scheduler.lastBatch) (member : (h.next event).scheduler.HasMember id) :
    h.scheduler.HasMember id := by
  obtain ⟨entry, mem, rfl⟩ := member
  rcases next_cases sound allowed with eq | ⟨scripts, e, -, -, new, eq⟩ | ⟨-, eq⟩
  · rw [eq] at mem
    exact ⟨entry, mem, rfl⟩
  · rw [eq, new.active, List.mem_append] at mem
    rcases mem with old | added
    · exact ⟨entry, old, rfl⟩
    · obtain ⟨i, hi, rfl⟩ := List.mem_map.mp added
      have := batch_of_mem_newInstances hi
      simp only [Instance.entry] at started
      omega
  · rw [eq] at mem
    exact ⟨entry, (mem_without.mp mem).1, rfl⟩

/-- What is complete stays complete. -/
theorem isComplete_next (sound : h.Sound) (allowed : h.Allows event) {id : Nat}
    (complete : h.scheduler.isComplete id = true) :
    (h.next event).scheduler.isComplete id = true := by
  obtain ⟨positive, started, none⟩ := (sound.scheduler.isComplete_iff id).mp complete
  rw [(sound.next allowed).scheduler.isComplete_iff]
  exact ⟨positive, Nat.le_trans started (next_lastBatch_le sound allowed),
    fun member => none (hasMember_of_next sound allowed started member)⟩

theorem isComplete_leads (sound : h.Sound) (leads : h.Leads k) {id : Nat}
    (complete : h.scheduler.isComplete id = true) : k.scheduler.isComplete id = true := by
  induction leads with
  | refl => exact complete
  | next before allowed ih => exact isComplete_next (sound.leads before) allowed ih

/-- A number that no batch had before is complete after an event only if the event started the
batch of none. -/
theorem enroll_nil_of_completes (sound : h.Sound) (allowed : h.Allows event) {id : Nat}
    (new : h.scheduler.lastBatch < id) (complete : (h.next event).scheduler.isComplete id = true) :
    event = .enroll [] ∧ id = h.scheduler.lastBatch + 1 := by
  obtain ⟨positive, started, none⟩ := ((sound.next allowed).scheduler.isComplete_iff id).mp complete
  rcases next_cases sound allowed with eq | ⟨scripts, e, rfl, -, added, eq⟩ | ⟨-, eq⟩
  · rw [eq] at started
    omega
  · rw [eq] at started none
    rw [added.lastBatch] at started
    have number : id = h.scheduler.lastBatch + 1 := by omega
    cases scripts with
    | nil => exact ⟨rfl, number⟩
    | cons script rest =>
      obtain ⟨i, hi⟩ : ∃ i, i ∈ h.scheduler.newInstances (script :: rest) :=
        List.exists_mem_of_length_pos (by simp)
      refine absurd ⟨i.entry, ?_, ?_⟩ none
      · rw [added.active]
        exact List.mem_append_right _ (List.mem_map_of_mem hi)
      · rw [number]
        exact batch_of_mem_newInstances hi
  · rw [eq] at started
    exact absurd started (Nat.not_le_of_lt new)

theorem completes_iff (sound : h.Sound) (allowed : h.Allows event) {id : Nat} :
    h.Completes event id ↔
      (h.scheduler.HasMember id ∧ ¬ (h.next event).scheduler.HasMember id) ∨
        (event = .enroll [] ∧ id = h.scheduler.lastBatch + 1) := by
  have after := sound.next allowed
  have now := sound.scheduler.isComplete_iff id
  constructor
  · rintro ⟨before, complete⟩
    by_cases started : id ≤ h.scheduler.lastBatch
    · obtain ⟨positive, -, none⟩ := (after.scheduler.isComplete_iff id).mp complete
      refine .inl ⟨?_, none⟩
      by_contra free
      simp [now.mpr ⟨positive, started, free⟩] at before
    · exact .inr (enroll_nil_of_completes sound allowed (Nat.lt_of_not_le started) complete)
  · rintro (⟨⟨entry, mem, rfl⟩, none⟩ | ⟨rfl, rfl⟩)
    · have positive := sound.scheduler.batch_pos entry mem
      have started := sound.scheduler.batch_le entry mem
      constructor
      · rw [← Bool.not_eq_true, now]
        exact fun ⟨_, _, free⟩ => free ⟨entry, mem, rfl⟩
      · rw [after.scheduler.isComplete_iff]
        exact ⟨positive, Nat.le_trans started (next_lastBatch_le sound allowed), none⟩
    · constructor
      · rw [← Bool.not_eq_true, now]
        omega
      · rw [after.scheduler.isComplete_iff]
        refine ⟨Nat.succ_pos _, Nat.le_refl _, ?_⟩
        rintro ⟨entry, mem, same⟩
        have := sound.scheduler.batch_le entry mem
        omega

/-- In every history the table lists the batches that have a member left, with the number of
members left, and no count-down meets a batch without one. A batch is complete if it was started
and has no member. The event that completes it takes its last member out, unless it started the
batch of none; the late end of an instance does nothing, and no batch is completed twice. -/
theorem batches_account_for_members (reach : h.Reachable) :
    (h.scheduler.batches.map (·.id)).Nodup ∧
    (∀ id, id ∈ h.scheduler.batches.map (·.id) ↔ h.scheduler.HasMember id) ∧
    (∀ b ∈ h.scheduler.batches,
      b.remaining = h.scheduler.active.countP (·.batch == b.id)) ∧
    (∀ id, h.scheduler.isComplete id = true ↔
      0 < id ∧ id ≤ h.scheduler.lastBatch ∧ ¬ h.scheduler.HasMember id) ∧
    ∀ event, h.Allows event →
      (∀ before e after, h.leaving event = before ++ e :: after →
        ∃ b ∈ before.foldl (fun batches entry => memberEnded batches entry.batch)
          h.scheduler.batches, b.id = e.batch ∧ 0 < b.remaining) ∧
      ((∀ scripts, event ≠ .enroll scripts) →
        (h.next event).scheduler = h.scheduler.without (h.leaving event)) ∧
      (∀ i, event = .finish i → h.scheduler.isCurrent i.name i.generation = false →
        h.next event = h) ∧
      ∀ id,
        (h.Completes event id ↔
          (h.scheduler.HasMember id ∧ ¬ (h.next event).scheduler.HasMember id) ∨
            (event = .enroll [] ∧ id = h.scheduler.lastBatch + 1)) ∧
        (h.Completes event id → ∀ later, (h.next event).Leads later → ∀ again,
          ¬ later.Completes again id) := by
  have sound := reach.sound
  have accounts := sound.scheduler.accounts
  refine ⟨accounts.ids_nodup, ?_, ?_, sound.scheduler.isComplete_iff, ?_⟩
  · intro id
    rw [accounts.mem_ids_iff, List.mem_map]
    rfl
  · intro b hb
    rw [((accounts.mem_iff b).mp hb).2, List.count, List.countP_map]
    rfl
  · intro event allowed
    refine ⟨?_, ?_, ?_, fun id => ⟨completes_iff sound allowed, ?_⟩⟩
    · intro before e after split
      have sub := leaving_sublist sound allowed
      rw [split] at sub
      exact sound.scheduler.counted sub
    · intro notEnroll
      rw [next_eq_without notEnroll]
    · rintro i rfl stale
      simp [next, finish_of_not_current stale]
    · rintro ⟨-, complete⟩ later leads again ⟨before, -⟩
      rw [isComplete_leads (sound.next allowed) leads complete] at before
      cases before

/-- A history in which `a` was stopped and started again, and then the end of its first run was
reported; of the first batch only `b` is left. -/
def restarted : History :=
  { scheduler :=
      { active := [⟨"b", 2, 1⟩, ⟨"a", 3, 2⟩]
        batches := [⟨1, 1⟩, ⟨2, 1⟩]
        lastBatch := 2
        nextGeneration := 4 }
    handed := [.ofText "a" "print 1" 1 1, .ofText "b" "print 2" 2 1, .ofText "a" "print 3" 3 2] }

theorem restarted_reachable : restarted.Reachable := by
  let first := ({} : History).next (.enroll [("a", "print 1"), ("b", "print 2")])
  have started : first.Reachable := .next .refl (by simp [Allows])
  have stopped : (first.next (.stop (.named "a"))).Reachable := .next started trivial
  have again : ((first.next (.stop (.named "a"))).next (.enroll [("a", "print 3")])).Reachable :=
    .next stopped (by simp [Allows])
  have late : (((first.next (.stop (.named "a"))).next (.enroll [("a", "print 3")])).next
      (.finish (.ofText "a" "print 1" 1 1))).Reachable :=
    .next again ⟨_, List.mem_cons_self, rfl⟩
  exact late

/-- There the end of `b` completes the first batch. -/
theorem restarted_completes_first :
    restarted.Reachable ∧ restarted.Allows (.finish (.ofText "b" "print 2" 2 1)) ∧
      restarted.Completes (.finish (.ofText "b" "print 2" 2 1)) 1 := by
  have allowed : restarted.Allows (.finish (.ofText "b" "print 2" 2 1)) :=
    ⟨_, List.mem_cons_of_mem _ List.mem_cons_self, rfl⟩
  obtain ⟨-, -, -, -, events⟩ := batches_account_for_members restarted_reachable
  obtain ⟨-, -, -, completion⟩ := events _ allowed
  refine ⟨restarted_reachable, allowed, (completion 1).1.mpr (.inl ⟨⟨⟨"b", 2, 1⟩, ?_, rfl⟩, ?_⟩)⟩
  · exact List.mem_cons_self
  · rintro ⟨e, mem, same⟩
    have only : e ∈ [(⟨"a", 3, 2⟩ : Active)] := mem
    rw [List.mem_singleton] at only
    rw [only] at same
    cases same

end History

end LineScript.Scheduler
