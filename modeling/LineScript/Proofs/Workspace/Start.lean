import LineScript.Workspace
import LineScript.Proofs.Scheduler.History

/-!
# The start of a batch

A batch starts if nothing can be said against it, and then all of it starts. `Startable` is the
condition and `Refusal` says which objection is made if there are several: the one that comes
first in the order of its constructors, and of the names that do not load the first in the list.
-/

namespace LineScript

/-! ## The check -/

namespace Scheduler

theorem firstRepeated?_eq_none_iff {seen names : List String} :
    firstRepeated? seen names = none ↔ names.Nodup ∧ ∀ name ∈ names, name ∉ seen := by
  induction names generalizing seen with
  | nil => simp [firstRepeated?]
  | cons name rest ih =>
    by_cases again : name ∈ seen
    · simp [firstRepeated?, again]
    · have step : firstRepeated? seen (name :: rest) = firstRepeated? (name :: seen) rest := by
        simp [firstRepeated?, again]
      rw [step, ih, List.nodup_cons]
      constructor
      · rintro ⟨distinct, new⟩
        refine ⟨⟨fun mem => new name mem (by simp), distinct⟩, ?_⟩
        intro other mem
        rcases List.mem_cons.mp mem with rfl | mem
        · exact again
        · exact fun old => new other mem (by simp [old])
      · rintro ⟨⟨absent, distinct⟩, new⟩
        refine ⟨distinct, fun other mem old => ?_⟩
        rcases List.mem_cons.mp old with rfl | old
        · exact absent mem
        · exact new other (by simp [mem]) old

/-- The name that is found is the first one that occurs again. -/
theorem firstRepeated?_eq_some_iff {seen names : List String} {name : String} :
    firstRepeated? seen names = some name ↔ ∃ before after,
      names = before ++ name :: after ∧ before.Nodup ∧ (∀ n ∈ before, n ∉ seen) ∧
        (name ∈ seen ∨ name ∈ before) := by
  induction names generalizing seen with
  | nil => simp [firstRepeated?]
  | cons first rest ih =>
    by_cases again : first ∈ seen
    · have found : firstRepeated? seen (first :: rest) = some first := by
        simp [firstRepeated?, again]
      rw [found, Option.some.injEq]
      constructor
      · rintro rfl
        exact ⟨[], rest, rfl, List.nodup_nil, by simp, .inl again⟩
      · rintro ⟨before, after, split, -, new, -⟩
        cases before with
        | nil => exact (List.cons.inj split).1
        | cons head tail =>
          obtain ⟨rfl, -⟩ := List.cons.inj split
          exact absurd again (new first (by simp))
    · have step : firstRepeated? seen (first :: rest) = firstRepeated? (first :: seen) rest := by
        simp [firstRepeated?, again]
      rw [step, ih]
      constructor
      · rintro ⟨before, after, rfl, distinct, new, found⟩
        refine ⟨first :: before, after, rfl, ?_, ?_, ?_⟩
        · exact List.nodup_cons.mpr ⟨fun mem => new first mem (by simp), distinct⟩
        · intro n mem
          rcases List.mem_cons.mp mem with rfl | mem
          · exact again
          · exact fun old => new n mem (by simp [old])
        · rcases found with found | found
          · rcases List.mem_cons.mp found with rfl | old
            · exact .inr (by simp)
            · exact .inl old
          · exact .inr (by simp [found])
      · rintro ⟨before, after, split, distinct, new, found⟩
        cases before with
        | nil =>
          obtain ⟨rfl, -⟩ := List.cons.inj split
          exact absurd (found.resolve_right (by simp)) again
        | cons head tail =>
          obtain ⟨rfl, rfl⟩ := List.cons.inj split
          rw [List.nodup_cons] at distinct
          refine ⟨tail, after, rfl, distinct.2, ?_, ?_⟩
          · intro n mem old
            rcases List.mem_cons.mp old with rfl | old
            · exact distinct.1 mem
            · exact new n (by simp [mem]) old
          · rcases found with found | found
            · exact .inl (by simp [found])
            · rcases List.mem_cons.mp found with rfl | found
              · exact .inl (by simp)
              · exact .inr found

variable {s : Scheduler} {invoker : Option String} {names : List String} {name : String}

theorem check_self (starts : invoker = some name) (mem : name ∈ names) :
    s.check invoker names = .error (.selfReference name) := by
  subst starts
  simp [check, Option.filter, mem]

theorem filter_eq_none (other : ∀ name, invoker = some name → name ∉ names) :
    invoker.filter names.contains = none := by
  cases invoker with
  | none => rfl
  | some name => simpa [Option.filter] using other name rfl

theorem check_repeated (other : ∀ name, invoker = some name → name ∉ names)
    (twice : firstRepeated? [] names = some name) :
    s.check invoker names = .error (.duplicate name) := by
  simp only [check, filter_eq_none other, twice]

theorem check_running (other : ∀ name, invoker = some name → name ∉ names)
    (once : firstRepeated? [] names = none) (running : names.find? s.isActive = some name) :
    s.check invoker names = .error (.alreadyActive name) := by
  simp only [check, filter_eq_none other, once, running]

theorem check_passes (other : ∀ name, invoker = some name → name ∉ names)
    (once : firstRepeated? [] names = none) (idle : names.find? s.isActive = none) :
    s.check invoker names = .ok () := by
  simp only [check, filter_eq_none other, once, idle]

/-- The check passes a batch that does not name who starts it, names no script twice and none that
is running. -/
theorem check_eq_ok_iff : s.check invoker names = .ok () ↔
    (∀ name, invoker = some name → name ∉ names) ∧ names.Nodup ∧
      ∀ name ∈ names, name ∉ s.names := by
  by_cases self : ∃ name, invoker = some name ∧ name ∈ names
  · obtain ⟨name, starts, mem⟩ := self
    rw [check_self starts mem]
    constructor
    · intro h
      cases h
    · rintro ⟨other, -, -⟩
      exact absurd mem (other name starts)
  · have other : ∀ name, invoker = some name → name ∉ names :=
      fun name starts mem => self ⟨name, starts, mem⟩
    cases repeated : firstRepeated? [] names with
    | some name =>
      have twice : ¬ names.Nodup := fun distinct => by
        rw [firstRepeated?_eq_none_iff.mpr ⟨distinct, by simp⟩] at repeated
        cases repeated
      simp [check_repeated other repeated, twice]
    | none =>
      have distinct := (firstRepeated?_eq_none_iff.mp repeated).1
      cases running : names.find? s.isActive with
      | some name =>
        have active := isActive_iff.mp (List.find?_some running)
        have mem := List.mem_of_find?_eq_some running
        rw [check_running other repeated running]
        simp only [reduceCtorEq, false_iff]
        exact fun h => h.2.2 name mem active
      | none =>
        simp only [check_passes other repeated running, true_iff]
        exact ⟨other, distinct, fun name mem active =>
          List.find?_eq_none.mp running name mem (isActive_iff.mpr active)⟩

end Scheduler

/-! ## Loading -/

namespace Workspace

theorem loadScripts_cons (store : Store) (name : String) (rest : List String) :
    loadScripts store (name :: rest) =
      match store.load name with
      | .error e => .error (.store e)
      | .ok none => .error (.unknownScript name)
      | .ok (some text) => (loadScripts store rest).map ((name, text) :: ·) := by
  cases found : store.load name with
  | error e => simp only [loadScripts, found]
  | ok text =>
    cases text with
    | none => simp only [loadScripts, found]
    | some text =>
      simp only [loadScripts, found]
      cases loadScripts store rest <;> rfl

theorem loadScripts_eq_ok_iff {store : Store} {names : List String}
    {scripts : List (String × String)} : loadScripts store names = .ok scripts ↔
      scripts.map Prod.fst = names ∧ ∀ p ∈ scripts, store.load p.1 = .ok (some p.2) := by
  induction names generalizing scripts with
  | nil =>
    simp only [loadScripts, Except.ok.injEq, List.map_eq_nil_iff]
    constructor
    · rintro rfl
      simp
    · exact fun h => h.1.symm
  | cons name rest ih =>
    rw [loadScripts_cons]
    constructor
    · intro h
      split at h
      · cases h
      · cases h
      · rename_i text found
        cases others : loadScripts store rest with
        | error e => simp [others, Except.map] at h
        | ok more =>
          obtain ⟨names_eq, loads⟩ := ih.mp others
          rw [others] at h
          cases h
          refine ⟨by simp [names_eq], fun p mem => ?_⟩
          rcases List.mem_cons.mp mem with rfl | mem
          · exact found
          · exact loads p mem
    · rintro ⟨names_eq, loads⟩
      cases scripts with
      | nil => simp at names_eq
      | cons first more =>
        obtain ⟨rfl, rest_eq⟩ := List.cons.inj names_eq
        have others : loadScripts store rest = .ok more :=
          ih.mpr ⟨rest_eq, fun p mem => loads p (by simp [mem])⟩
        rw [loads first (by simp), others]
        rfl

/-- What goes wrong goes wrong with the first script in the list that does not load. -/
theorem loadScripts_eq_error_iff {store : Store} {names : List String} {err : StartError} :
    loadScripts store names = .error err ↔ ∃ before name after,
      names = before ++ name :: after ∧
      (∀ n ∈ before, ∃ text, store.load n = .ok (some text)) ∧
      ((store.load name = .ok none ∧ err = .unknownScript name) ∨
        ∃ e, store.load name = .error e ∧ err = .store e) := by
  induction names with
  | nil => simp [loadScripts]
  | cons first rest ih =>
    rw [loadScripts_cons]
    constructor
    · intro h
      split at h
      · rename_i e failed
        cases h
        exact ⟨[], first, rest, rfl, by simp, .inr ⟨e, failed, rfl⟩⟩
      · rename_i missing
        cases h
        exact ⟨[], first, rest, rfl, by simp, .inl ⟨missing, rfl⟩⟩
      · rename_i text found
        cases others : loadScripts store rest with
        | ok more => simp [others, Except.map] at h
        | error e =>
          rw [others] at h
          cases h
          obtain ⟨before, name, after, rfl, loads, wrong⟩ := ih.mp others
          refine ⟨first :: before, name, after, rfl, fun n mem => ?_, wrong⟩
          rcases List.mem_cons.mp mem with rfl | mem
          · exact ⟨text, found⟩
          · exact loads n mem
    · rintro ⟨before, name, after, split, loads, wrong⟩
      cases before with
      | nil =>
        obtain ⟨rfl, -⟩ := List.cons.inj split
        rcases wrong with ⟨missing, rfl⟩ | ⟨e, failed, rfl⟩
        · rw [missing]
        · rw [failed]
      | cons head tail =>
        obtain ⟨rfl, rfl⟩ := List.cons.inj split
        obtain ⟨text, found⟩ := loads first (by simp)
        have others := ih.mpr ⟨tail, name, after, rfl, fun n mem => loads n (by simp [mem]), wrong⟩
        rw [found, others]
        rfl

/-! ## The start -/

variable {ws ws' : Workspace} {invoker : Option String} {names : List String}

/-- A batch is registered: the workspace is the same but for the scheduler, the inbox, and one
announcement unless there are no scripts. -/
theorem enlist_ok {scripts : List (String × String)} {started : Started}
    (distinct : (scripts.map Prod.fst).Nodup) (h : ws.enlist scripts = .ok (started, ws')) :
    ∃ e, ws.scheduler.Enrolled scripts e ∧ started = ⟨e.batch, e.names⟩ ∧
      ws' =
        { ws.publish e.messages with
          scheduler := e.scheduler
          inbox := ws.inbox ++ e.instances } := by
  unfold enlist at h
  cases outcome : ws.scheduler.enroll scripts with
  | error err =>
    rw [outcome] at h
    cases h
  | ok e =>
    rw [outcome] at h
    cases h
    exact ⟨e, Scheduler.enroll_ok distinct outcome, rfl, rfl⟩

theorem enlist_eq_error_iff {scripts : List (String × String)} {err : StartError} :
    ws.enlist scripts = .error err ↔
      ∃ name, (scripts.map Prod.fst).find? ws.scheduler.isActive = some name ∧
        err = .alreadyActive name := by
  rw [← Scheduler.enroll_eq_error_iff]
  unfold enlist
  cases ws.scheduler.enroll scripts with
  | error e =>
    constructor
    · intro h
      cases h
      rfl
    · intro h
      cases h
      rfl
  | ok e =>
    constructor
    · intro h
      cases h
    · intro h
      cases h

/-- With a driver, a start is a check, then the loading, then the registration. -/
theorem startBatch_eq (driven : ws.driven = true) (invoker : Option String)
    (names : List String) : ws.startBatch invoker names =
      (ws.scheduler.check invoker names).bind fun _ =>
        (loadScripts ws.store names).bind ws.enlist := by
  simp only [startBatch, driven, Bool.not_true, Bool.false_eq_true, if_false]
  rfl

/-- Nothing can be said against the batch. -/
structure Startable (ws : Workspace) (invoker : Option String) (names : List String) : Prop where
  other : ∀ name, invoker = some name → name ∉ names
  distinct : names.Nodup
  idle : ∀ name ∈ names, name ∉ ws.scheduler.names
  loads : ∀ name ∈ names, ∃ text, ws.store.load name = .ok (some text)

/-- The objection that is made to a batch. Each one presupposes that those before it cannot be
made. -/
inductive Refusal (ws : Workspace) (invoker : Option String) (names : List String) :
    StartError → Prop where
  | selfReference {name : String} (starts : invoker = some name) (mem : name ∈ names) :
      Refusal ws invoker names (.selfReference name)
  | duplicate {name : String} {before after : List String}
      (other : ∀ name, invoker = some name → name ∉ names)
      (split : names = before ++ name :: after) (distinct : before.Nodup) (again : name ∈ before) :
      Refusal ws invoker names (.duplicate name)
  | alreadyActive {name : String} {before after : List String}
      (other : ∀ name, invoker = some name → name ∉ names) (distinct : names.Nodup)
      (split : names = before ++ name :: after)
      (idle : ∀ n ∈ before, n ∉ ws.scheduler.names) (active : name ∈ ws.scheduler.names) :
      Refusal ws invoker names (.alreadyActive name)
  | unknownScript {name : String} {before after : List String}
      (other : ∀ name, invoker = some name → name ∉ names) (distinct : names.Nodup)
      (idle : ∀ n ∈ names, n ∉ ws.scheduler.names) (split : names = before ++ name :: after)
      (loads : ∀ n ∈ before, ∃ text, ws.store.load n = .ok (some text))
      (missing : ws.store.load name = .ok none) : Refusal ws invoker names (.unknownScript name)
  | store {name : String} {before after : List String} {e : StoreError}
      (other : ∀ name, invoker = some name → name ∉ names) (distinct : names.Nodup)
      (idle : ∀ n ∈ names, n ∉ ws.scheduler.names) (split : names = before ++ name :: after)
      (loads : ∀ n ∈ before, ∃ text, ws.store.load n = .ok (some text))
      (failed : ws.store.load name = .error e) : Refusal ws invoker names (.store e)

theorem find?_isActive_eq_none {s : Scheduler} (idle : ∀ n ∈ names, n ∉ s.names) :
    names.find? s.isActive = none := by
  rw [List.find?_eq_none]
  exact fun n mem active => idle n mem (Scheduler.isActive_iff.mp active)

/-- The first running script of a list. -/
theorem find?_isActive_eq_some_iff {s : Scheduler} {name : String} :
    names.find? s.isActive = some name ↔ ∃ before after, names = before ++ name :: after ∧
      (∀ n ∈ before, n ∉ s.names) ∧ name ∈ s.names := by
  rw [List.find?_eq_some_iff_append]
  constructor
  · rintro ⟨active, before, after, split, idle⟩
    refine ⟨before, after, split, fun n mem running => ?_, Scheduler.isActive_iff.mp active⟩
    simpa [Scheduler.isActive_iff.mpr running] using idle n mem
  · rintro ⟨before, after, split, idle, active⟩
    refine ⟨Scheduler.isActive_iff.mpr active, before, after, split, fun n mem => ?_⟩
    simpa [← Scheduler.isActive_iff] using idle n mem

/-- A start that succeeds, whoever asks for it. -/
theorem startBatch_ok {started : Started} (h : ws.startBatch invoker names = .ok (started, ws')) :
    ws.Startable invoker names ∧ ∃ scripts e, scripts.map Prod.fst = names ∧
      ws.scheduler.Enrolled scripts e ∧ started = ⟨e.batch, e.names⟩ ∧
      ws' =
        { ws.publish e.messages with
          scheduler := e.scheduler
          inbox := ws.inbox ++ e.instances } := by
  by_cases driven : ws.driven = true
  · rw [startBatch_eq driven] at h
    cases checked : ws.scheduler.check invoker names with
    | error err =>
      rw [checked] at h
      cases h
    | ok _ =>
      rw [checked] at h
      cases loaded : loadScripts ws.store names with
      | error err =>
        rw [loaded] at h
        cases h
      | ok scripts =>
        rw [loaded] at h
        obtain ⟨other, distinct, idle⟩ := Scheduler.check_eq_ok_iff.mp checked
        obtain ⟨names_eq, loads⟩ := loadScripts_eq_ok_iff.mp loaded
        obtain ⟨e, new, rfl, rfl⟩ := enlist_ok (names_eq ▸ distinct) h
        refine ⟨⟨other, distinct, idle, fun name mem => ?_⟩, scripts, e, names_eq, new, rfl, rfl⟩
        rw [← names_eq] at mem
        obtain ⟨p, hp, rfl⟩ := List.mem_map.mp mem
        exact ⟨p.2, loads p hp⟩
  · simp [startBatch, driven, throw, throwThe, MonadExceptOf.throw, bind, Except.bind] at h

theorem startBatch_of_startable (driven : ws.driven = true)
    (startable : ws.Startable invoker names) : ∃ r, ws.startBatch invoker names = .ok r := by
  have checked : ws.scheduler.check invoker names = .ok () :=
    Scheduler.check_eq_ok_iff.mpr ⟨startable.other, startable.distinct, startable.idle⟩
  rw [startBatch_eq driven, checked]
  cases loaded : loadScripts ws.store names with
  | error err =>
    obtain ⟨before, name, after, rfl, -, wrong⟩ := loadScripts_eq_error_iff.mp loaded
    obtain ⟨text, found⟩ := startable.loads name (by simp)
    rcases wrong with ⟨missing, -⟩ | ⟨e, failed, -⟩
    · rw [found] at missing
      cases missing
    · rw [found] at failed
      cases failed
  | ok scripts =>
    cases outcome : ws.enlist scripts with
    | ok r => exact ⟨r, outcome⟩
    | error err =>
      obtain ⟨name, active, -⟩ := enlist_eq_error_iff.mp outcome
      rw [(loadScripts_eq_ok_iff.mp loaded).1, find?_isActive_eq_none startable.idle] at active
      cases active

/-- The objections that are made are the refusals. -/
theorem startBatch_eq_error_iff (driven : ws.driven = true) {err : StartError} :
    ws.startBatch invoker names = .error err ↔ ws.Refusal invoker names err := by
  rw [startBatch_eq driven]
  constructor
  · intro h
    by_cases self : ∃ name, invoker = some name ∧ name ∈ names
    · obtain ⟨name, starts, mem⟩ := self
      rw [Scheduler.check_self starts mem] at h
      cases h
      exact .selfReference starts mem
    · have other : ∀ name, invoker = some name → name ∉ names :=
        fun name starts mem => self ⟨name, starts, mem⟩
      cases repeated : Scheduler.firstRepeated? [] names with
      | some name =>
        rw [Scheduler.check_repeated other repeated] at h
        cases h
        obtain ⟨before, after, split, distinct, -, found⟩ :=
          Scheduler.firstRepeated?_eq_some_iff.mp repeated
        exact .duplicate other split distinct (found.resolve_left (by simp))
      | none =>
        have distinct := (Scheduler.firstRepeated?_eq_none_iff.mp repeated).1
        cases running : names.find? ws.scheduler.isActive with
        | some name =>
          rw [Scheduler.check_running other repeated running] at h
          cases h
          obtain ⟨before, after, split, idle, active⟩ := find?_isActive_eq_some_iff.mp running
          exact .alreadyActive other distinct split idle active
        | none =>
          have idle : ∀ n ∈ names, n ∉ ws.scheduler.names := fun n mem active =>
            List.find?_eq_none.mp running n mem (Scheduler.isActive_iff.mpr active)
          rw [Scheduler.check_passes other repeated running] at h
          cases loaded : loadScripts ws.store names with
          | error e =>
            rw [loaded] at h
            cases h
            obtain ⟨before, name, after, split, loads, wrong⟩ :=
              loadScripts_eq_error_iff.mp loaded
            rcases wrong with ⟨missing, rfl⟩ | ⟨e, failed, rfl⟩
            · exact .unknownScript other distinct idle split loads missing
            · exact .store other distinct idle split loads failed
          | ok scripts =>
            rw [loaded] at h
            obtain ⟨name, active, -⟩ := enlist_eq_error_iff.mp h
            rw [(loadScripts_eq_ok_iff.mp loaded).1, running] at active
            cases active
  · intro refusal
    cases refusal with
    | selfReference starts mem =>
      rw [Scheduler.check_self starts mem]
      rfl
    | duplicate other split distinct again =>
      rw [Scheduler.check_repeated other (Scheduler.firstRepeated?_eq_some_iff.mpr
        ⟨_, _, split, distinct, by simp, .inr again⟩)]
      rfl
    | alreadyActive other distinct split idle active =>
      rw [Scheduler.check_running other
        (Scheduler.firstRepeated?_eq_none_iff.mpr ⟨distinct, by simp⟩)
        (find?_isActive_eq_some_iff.mpr ⟨_, _, split, idle, active⟩)]
      rfl
    | unknownScript other distinct idle split loads missing =>
      rw [Scheduler.check_eq_ok_iff.mpr ⟨other, distinct, idle⟩,
        loadScripts_eq_error_iff.mpr ⟨_, _, _, split, loads, .inl ⟨missing, rfl⟩⟩]
      rfl
    | store other distinct idle split loads failed =>
      rw [Scheduler.check_eq_ok_iff.mpr ⟨other, distinct, idle⟩,
        loadScripts_eq_error_iff.mpr ⟨_, _, _, split, loads, .inr ⟨_, failed, rfl⟩⟩]
      rfl

end Workspace

end LineScript
