import LineScript.Line.Evaluate
import LineScript.Proofs.Scheduler.History
import LineScript.Proofs.Workspace.Removal
import LineScript.Proofs.Workspace.Start

/-!
# Starts that overlap

A start checks its batch, loads the scripts and registers them. In between the workspace is in
other hands: other starts are under way, instances end and are stopped, and the store changes. What
the check has found out may be wrong by then, so the registration looks again whether a script is
running. Here each phase is a step of its own. However the phases of many starts follow each other,
no name is registered twice, and a batch that is refused leaves nothing behind.
-/

namespace LineScript

/-- A start that is under way. -/
inductive Call where
  | asked (invoker : Option String) (names : List String)
  | checked (names : List String)
  | loaded (scripts : List (String × String))

namespace Call

/-- What a phase comes to. -/
inductive Progress where
  | next (call : Call)
  | started (batch : Workspace.Started)
  | refused (error : StartError)

/-- The start, if it is still under way. -/
def Progress.pending : Progress → List Call
  | .next call => [call]
  | _ => []

/-- The next phase of a start. -/
def advance (ws : Workspace) : Call → Progress × Workspace
  | .asked invoker names =>
    match ws.scheduler.check invoker names with
    | .ok _ => (.next (.checked names), ws)
    | .error e => (.refused e, ws)
  | .checked names =>
    match Workspace.loadScripts ws.store names with
    | .ok scripts => (.next (.loaded scripts), ws)
    | .error e => (.refused e, ws)
  | .loaded scripts =>
    match ws.enlist scripts with
    | .ok (batch, ws) => (.started batch, ws)
    | .error e => (.refused e, ws)

/-- The phases of a start one after the other, with nobody in between. -/
inductive Settles (ws : Workspace) : Call → Progress × Workspace → Prop where
  | final {call : Call} {result : Progress × Workspace} (step : call.advance ws = result)
      (done : result.1.pending = []) : Settles ws call result
  | next {call second : Call} {result : Progress × Workspace}
      (step : call.advance ws = (.next second, ws)) (rest : Settles ws second result) :
      Settles ws call result

/-- The result of a start as that of its last phase. -/
def resultOf (ws : Workspace) :
    Except StartError (Workspace.Started × Workspace) → Progress × Workspace
  | .ok (batch, ws) => (.started batch, ws)
  | .error e => (.refused e, ws)

theorem advance_loaded (ws : Workspace) (scripts : List (String × String)) :
    (loaded scripts).advance ws = resultOf ws (ws.enlist scripts) := by
  rw [advance]
  cases ws.enlist scripts with
  | ok r => rfl
  | error e => rfl

/-- With a driver a start is its three phases. -/
theorem settles_startBatch {ws : Workspace} (driven : ws.driven = true) (invoker : Option String)
    (names : List String) :
    (asked invoker names).Settles ws (resultOf ws (ws.startBatch invoker names)) := by
  rw [Workspace.startBatch_eq driven]
  cases checked : ws.scheduler.check invoker names with
  | error e => exact .final (by rw [advance, checked]; rfl) rfl
  | ok _ =>
    have first : (asked invoker names).advance ws = (.next (.checked names), ws) := by
      rw [advance, checked]
    refine .next first ?_
    cases found : Workspace.loadScripts ws.store names with
    | error e => exact .final (by rw [advance, found]; rfl) rfl
    | ok scripts =>
      have second : (Call.checked names).advance ws = (.next (.loaded scripts), ws) := by
        rw [advance, found]
      refine .next second ?_
      show (Call.loaded scripts).Settles ws (resultOf ws (ws.enlist scripts))
      refine .final (advance_loaded ws scripts) ?_
      cases ws.enlist scripts with
      | error e => rfl
      | ok r => rfl

/-- The names in a start that has been checked are distinct. -/
def Distinct : Call → Prop
  | .asked _ _ => True
  | .checked names => names.Nodup
  | .loaded scripts => (scripts.map Prod.fst).Nodup

/-- What a phase can do: the start goes on or is refused, and in either case nothing has changed,
or its batch is registered. -/
theorem advance_cases (ws : Workspace) {call : Call} (distinct : call.Distinct) :
    (∃ second, call.advance ws = (.next second, ws) ∧ second.Distinct) ∨
      (∃ e, call.advance ws = (.refused e, ws)) ∨
      ∃ scripts e ws', call = .loaded scripts ∧ ws.scheduler.Enrolled scripts e ∧
        ws'.scheduler = e.scheduler ∧ call.advance ws = (.started ⟨e.batch, e.names⟩, ws') := by
  cases call with
  | asked invoker names =>
    rw [advance]
    cases checked : ws.scheduler.check invoker names with
    | ok _ => exact .inl ⟨.checked names, rfl, (Scheduler.check_eq_ok_iff.mp checked).2.1⟩
    | error e => exact .inr (.inl ⟨e, rfl⟩)
  | checked names =>
    rw [advance]
    cases found : Workspace.loadScripts ws.store names with
    | ok scripts =>
      refine .inl ⟨_, rfl, ?_⟩
      show (scripts.map Prod.fst).Nodup
      rw [(Workspace.loadScripts_eq_ok_iff.mp found).1]
      exact distinct
    | error e => exact .inr (.inl ⟨e, rfl⟩)
  | loaded scripts =>
    rw [advance_loaded]
    cases outcome : ws.enlist scripts with
    | error e => exact .inr (.inl ⟨e, rfl⟩)
    | ok r =>
      obtain ⟨e, new, started, eq⟩ := Workspace.enlist_ok distinct outcome
      refine .inr (.inr ⟨scripts, e, r.2, rfl, new, ?_, ?_⟩)
      · rw [eq]
      · rw [← started]
        rfl

end Call

/-- A workspace with the starts that are under way on it. -/
structure Overlap where
  workspace : Workspace
  calls : List Call := []

namespace Overlap

/-- The overlap after the next phase of a call; `rest` are the other calls. -/
def advanced (o : Overlap) (call : Call) (rest : List Call) : Overlap :=
  let result := call.advance o.workspace
  { workspace := result.2, calls := result.1.pending ++ rest }

inductive Step (o : Overlap) : Overlap → Prop where
  | ask (invoker : Option String) (names : List String) :
      Step o { o with calls := .asked invoker names :: o.calls }
  | advance {call : Call} {rest : List Call} (underway : o.calls.Perm (call :: rest)) :
      Step o (o.advanced call rest)
  | finish (i : Instance) : Step o { o with workspace := o.workspace.finish i }
  | stop (target : StopTarget) : Step o { o with workspace := (o.workspace.stop target).2 }
  | restock (store : Store) : Step o { o with workspace := { o.workspace with store } }

/-- Any number of steps from a workspace where nothing has started. -/
inductive Reachable : Overlap → Prop where
  | fresh {ws : Workspace} (new : ws.scheduler = {}) : Reachable { workspace := ws }
  | step {o o' : Overlap} (reach : Reachable o) (step : o.Step o') : Reachable o'

theorem Reachable.advanced {o o' : Overlap} {call : Call} {rest : List Call} (reach : o.Reachable)
    (underway : o.calls.Perm (call :: rest)) (result : o.advanced call rest = o') : o'.Reachable :=
  result ▸ .step reach (.advance underway)

/-- Each name is registered once, and what was checked is distinct. -/
structure Sound (o : Overlap) : Prop where
  registered : o.workspace.scheduler.Registered
  distinct : ∀ call ∈ o.calls, call.Distinct

variable {o o' : Overlap}

theorem Sound.step (sound : o.Sound) (step : o.Step o') : o'.Sound := by
  cases step with
  | ask invoker names =>
    refine ⟨sound.registered, fun call mem => ?_⟩
    rcases List.mem_cons.mp mem with rfl | old
    · trivial
    · exact sound.distinct call old
  | @advance call rest underway =>
    -- Of what the check has found out only this is still true: the names are distinct.
    have mine := sound.distinct call (underway.mem_iff.mpr List.mem_cons_self)
    have others : ∀ c ∈ rest, c.Distinct :=
      fun c mem => sound.distinct c (underway.mem_iff.mpr (List.mem_cons_of_mem _ mem))
    unfold advanced
    rcases Call.advance_cases o.workspace mine with
      ⟨second, eq, distinct⟩ | ⟨e, eq⟩ | ⟨scripts, e, ws', rfl, new, same, eq⟩
    · rw [eq]
      refine ⟨sound.registered, fun c mem => ?_⟩
      rcases List.mem_cons.mp mem with rfl | old
      · exact distinct
      · exact others c old
    · rw [eq]
      exact ⟨sound.registered, others⟩
    · rw [eq]
      refine ⟨?_, others⟩
      show ws'.scheduler.Registered
      rw [same]
      exact new.registered mine sound.registered
  | finish i =>
    refine ⟨?_, sound.distinct⟩
    show (o.workspace.finish i).scheduler.Registered
    rw [Workspace.finish_scheduler]
    rcases Scheduler.finish_cases o.workspace.scheduler i with ⟨-, eq⟩ | ⟨-, eq⟩
    · rw [eq]
      exact sound.registered.without
    · rw [eq]
      exact sound.registered
  | stop target =>
    refine ⟨?_, sound.distinct⟩
    show (o.workspace.stop target).2.scheduler.Registered
    rw [Workspace.stop_scheduler]
    exact sound.registered.without
  | restock store => exact ⟨sound.registered, sound.distinct⟩

theorem Reachable.sound (reach : o.Reachable) : o.Sound := by
  induction reach with
  | fresh new =>
    refine ⟨?_, by simp⟩
    rw [new]
    exact Scheduler.Registered.empty
  | step _ step ih => exact ih.step step

end Overlap

/-! ## All or nothing -/

namespace Workspace

/-- What a start adds to a workspace: the names in their order, with the next generations and the
next number of a batch, and one announcement unless there are no names. -/
structure Starts (ws : Workspace) (names : List String) (started : Started) (ws' : Workspace) :
    Prop where
  batch : started = ⟨ws.scheduler.lastBatch + 1, names⟩
  active : ws'.scheduler.active = ws.scheduler.active ++ names.mapIdx fun i name =>
    ⟨name, ws.scheduler.nextGeneration + i, ws.scheduler.lastBatch + 1⟩
  batches : ws'.scheduler.batches = ws.scheduler.batches ++
    if names = [] then [] else [⟨ws.scheduler.lastBatch + 1, names.length⟩]
  lastBatch : ws'.scheduler.lastBatch = ws.scheduler.lastBatch + 1
  nextGeneration : ws'.scheduler.nextGeneration = ws.scheduler.nextGeneration + names.length
  bus : ws'.bus.pending.toList = ws.bus.pending.toList ++
    if names = [] then [] else [.scripts ws'.scheduler.names]
  inbox : ∃ sent, ws'.inbox = ws.inbox ++ sent ∧ sent.map Instance.entry =
    names.mapIdx fun i name => ⟨name, ws.scheduler.nextGeneration + i, ws.scheduler.lastBatch + 1⟩
  rest : ws' = { ws with scheduler := ws'.scheduler, bus := ws'.bus, inbox := ws'.inbox }

variable {ws ws' : Workspace} {invoker : Option String} {names : List String}

theorem starts_of_startBatch {started : Started}
    (h : ws.startBatch invoker names = .ok (started, ws')) : ws.Starts names started ws' := by
  obtain ⟨-, scripts, e, rfl, new, rfl, rfl⟩ := startBatch_ok h
  have added := Scheduler.newInstances_entries ws.scheduler scripts
  have none : scripts.map Prod.fst = [] ↔ scripts = [] := List.map_eq_nil_iff
  exact
    { batch := by rw [new.batch, new.names]
      active := by rw [← added]; exact new.active
      batches := by simp only [none, List.length_map]; exact new.batches
      lastBatch := new.lastBatch
      nextGeneration := by rw [List.length_map]; exact new.nextGeneration
      bus := by simp only [none, publish, Bus.toList_extend, new.messages]; rfl
      inbox := ⟨_, rfl, by rw [new.instances, added]⟩
      rest := rfl }

/-- A line whose start is refused goes on with the error and the workspace as it was. -/
theorem perform_of_refused {α : Type} {nested : Line.Evaluator}
    {next : Except StartError Unit → Action α} {ctx : Context} {err : StartError}
    (h : ws.startBatch (ctx.owner.map (·.name)) names = .error err) :
    Line.perform nested (.runScripts names next) ctx ws =
      Line.perform nested (next (.error err)) ctx ws := by
  rw [Line.perform, h]

/-- With a driver, a batch starts if and only if nothing can be said against it, and then it adds
its names, with generations and a number that nobody has had. Else the first objection is made, in
the order of `Refusal`, and whoever asked goes on with the workspace as it was. A start is its
three phases; when the phases of many starts overlap, among ends and stops, no name is registered
twice, a batch that is registered takes free names and keeps those that are there, and a phase that
refuses a batch changes nothing. -/
theorem start_is_all_or_nothing (driven : ws.driven = true) (invoker : Option String)
    (names : List String) :
    ((∃ r, ws.startBatch invoker names = .ok r) ↔ ws.Startable invoker names) ∧
    (∀ started ws', ws.startBatch invoker names = .ok (started, ws') →
      ws.Starts names started ws') ∧
    (∀ h : Scheduler.History, h.Reachable → h.scheduler = ws.scheduler → ∀ i ∈ h.handed,
      i.generation < ws.scheduler.nextGeneration ∧ i.batch < ws.scheduler.lastBatch + 1) ∧
    (∀ err, ws.startBatch invoker names = .error err ↔ ws.Refusal invoker names err) ∧
    (∀ err, ws.startBatch invoker names = .error err →
      ∀ (α : Type) (nested : Line.Evaluator) (next : Except StartError Unit → Action α)
        (ctx : Context), ctx.owner.map (·.name) = invoker →
          Line.perform nested (.runScripts names next) ctx ws =
            Line.perform nested (next (.error err)) ctx ws) ∧
    (Call.asked invoker names).Settles ws (Call.resultOf ws (ws.startBatch invoker names)) ∧
    ∀ o : Overlap, o.Reachable →
      o.workspace.scheduler.names.Nodup ∧
      ∀ call ∈ o.calls, ∀ progress after, call.advance o.workspace = (progress, after) →
        (∀ err, progress = .refused err → after = o.workspace) ∧
        ∀ batch, progress = .started batch →
          (∀ name ∈ batch.names, name ∉ o.workspace.scheduler.names) ∧
          after.scheduler.names = o.workspace.scheduler.names ++ batch.names ∧
          o.workspace.scheduler.active <+: after.scheduler.active := by
  refine ⟨⟨?_, startBatch_of_startable driven⟩, ?_, ?_, ?_, ?_, ?_, ?_⟩
  · rintro ⟨⟨started, ws'⟩, ok⟩
    exact (startBatch_ok ok).1
  · exact fun started ws' ok => starts_of_startBatch ok
  · intro h reach same i mem
    rw [← same]
    exact ⟨(reach.sound.knows i mem).generation_lt, Nat.lt_succ_of_le (reach.sound.batch_le i mem)⟩
  · exact fun err => startBatch_eq_error_iff driven
  · intro err refused α nested next ctx owner
    exact perform_of_refused (owner ▸ refused)
  · exact Call.settles_startBatch driven invoker names
  · intro o reach
    have sound := reach.sound
    refine ⟨sound.registered.names_nodup, fun call mem progress after eq => ?_⟩
    rcases Call.advance_cases o.workspace (sound.distinct call mem) with
      ⟨second, goes, -⟩ | ⟨e, refuses⟩ | ⟨scripts, e, ws', -, new, same, starts⟩
    · obtain ⟨rfl, rfl⟩ := Prod.mk.inj (goes.symm.trans eq)
      exact ⟨by simp, by simp⟩
    · obtain ⟨rfl, rfl⟩ := Prod.mk.inj (refuses.symm.trans eq)
      exact ⟨fun _ _ => rfl, by simp⟩
    · obtain ⟨rfl, rfl⟩ := Prod.mk.inj (starts.symm.trans eq)
      refine ⟨by simp, fun batch started => ?_⟩
      obtain rfl := Call.Progress.started.inj started
      rw [same]
      refine ⟨?_, ?_, ⟨_, new.active.symm⟩⟩
      · rw [new.names]
        exact new.free
      · rw [new.names]
        exact new.names_eq

/-- Two scripts to start. -/
def shelf : Workspace :=
  { config := .isolated
    registry := {}
    device := .recording
    store := .memory ⟨[("a", "print 1"), ("b", "print 2")]⟩ }

/-- Two starts have both been checked and loaded, and one of them has taken a name of the other. -/
def rivals : Overlap :=
  { workspace :=
      { shelf with
        scheduler :=
          { active := [⟨"a", 1, 1⟩], batches := [⟨1, 1⟩], lastBatch := 1, nextGeneration := 2 }
        bus := ⟨#[.scripts ["a"]]⟩
        inbox := [.ofText "a" "print 1" 1 1] }
    calls := [.loaded [("b", "print 2"), ("a", "print 1")]] }

theorem rivals_reachable : rivals.Reachable := by
  let one : List (String × String) := [("a", "print 1")]
  let both : List (String × String) := [("b", "print 2"), ("a", "print 1")]
  have asked : Overlap.Reachable ⟨shelf, [.asked none ["b", "a"], .asked none ["a"]]⟩ :=
    .step (.step (.fresh rfl) (.ask none ["a"])) (.ask none ["b", "a"])
  have checked₁ : Overlap.Reachable ⟨shelf, [.checked ["b", "a"], .asked none ["a"]]⟩ :=
    asked.advanced (.refl _) rfl
  have checked₂ : Overlap.Reachable ⟨shelf, [.checked ["a"], .checked ["b", "a"]]⟩ :=
    checked₁.advanced (.swap ..) rfl
  have loaded₁ : Overlap.Reachable ⟨shelf, [.loaded one, .checked ["b", "a"]]⟩ :=
    checked₂.advanced (.refl _) rfl
  have loaded₂ : Overlap.Reachable ⟨shelf, [.loaded both, .loaded one]⟩ :=
    loaded₁.advanced (.swap ..) rfl
  exact loaded₂.advanced (.swap ..) rfl

theorem rivals_keep_apart :
    shelf.Startable none ["b", "a"] ∧
      rivals.workspace.scheduler.names.Nodup ∧
      (Call.loaded [("b", "print 2"), ("a", "print 1")]).advance rivals.workspace =
        (.refused (.alreadyActive "a"), rivals.workspace) := by
  have driven : shelf.driven = true := rfl
  obtain ⟨starts, -, -, -, -, -, overlaps⟩ := start_is_all_or_nothing driven none ["b", "a"]
  obtain ⟨distinct, phases⟩ := overlaps rivals rivals_reachable
  have refused := (phases _ List.mem_cons_self _ _ rfl).1 (.alreadyActive "a") rfl
  exact ⟨starts.mp ⟨_, rfl⟩, distinct, Prod.ext rfl refused⟩

end Workspace

end LineScript
