import LineScript.Proofs.Line.Provenance
import LineScript.Proofs.Script.Tick

/-!
# Where an instance goes

A line goes to another line of its script through `goto` or `skip`, at whatever depth the command
stands. It does so at most once, because a command that has gone somewhere evaluates no line and
one that has evaluated a line goes nowhere. So the counter of a running instance moves with every
tick, stays inside the source, and is where the command has sent it, or else one line further on.

* `Line.targets` are the lines that a journal has gone to.
* `Instance.Moves` says how the end of a tick follows from them and from whether the line failed.
* `Instance.Underway` are the instances that ticks lead to.
-/

namespace LineScript

/-! ## Where a line goes -/

namespace Line

/-- The lines that a script was sent to. -/
def targets (log : List Entry) : List Nat :=
  log.filterMap Entry.target?

@[simp] theorem targets_nil : targets [] = [] := rfl

theorem targets_append (a b : List Entry) : targets (a ++ b) = targets a ++ targets b :=
  List.filterMap_append

/-- The lines go to one line at most, and nowhere if they fail. -/
def AllRoute (inner : Outcomes) : Prop :=
  ∀ call e log, inner call (some e) log →
    (targets log).length ≤ 1 ∧
      e.evaluation.jump = if e.evaluation.failed then none else (targets log).head?

section

variable {inner : Outcomes} {call : Call} {name raw : String} {s : Stage} {ctx : Context}
  {log : List Entry}

theorem targets_asked (log : List Entry) (line : String) (r : Request) (reply : r.Reply) :
    targets (log ++ [⟨line, .asked r reply⟩]) = targets log ++ (r.granted? reply).toList := by
  rw [targets_append]
  cases granted : r.granted? reply <;> simp [targets, Entry.target?, granted]

theorem targets_nested (log : List Entry) (line code : String) (own : List Entry) :
    targets (log ++ ⟨line, .evaluated code⟩ :: own) = targets log ++ targets own := by
  rw [targets_append]
  rfl

/-- A command goes to a line only if it has done nothing of the kind before. -/
theorem fresh_or_not_granted {owner : Option Instance} {r : Request}
    (permitted : Conduct.permits name raw owner s r) (reply : r.Reply) :
    s = .fresh ∧ Conduct.answered s r ≠ .fresh ∨
      r.granted? reply = none ∧ Conduct.answered s r = s := by
  cases r with
  | jump target => exact .inl ⟨permitted.1, nofun⟩
  | _ => exact .inr ⟨rfl, rfl⟩

/-- Where a command has gone: nowhere as long as it is fresh, and otherwise where its context says,
unless it has failed. -/
structure Routed (s : Stage) (ctx : Context) (log : List Entry) : Prop where
  once : (targets log).length ≤ 1
  fresh : s = .fresh → targets log = [] ∧ ctx.jump = none
  jump : ctx.failed = false → ctx.jump = (targets log).head?

theorem Reached.routed (route : AllRoute inner) (h : Reached inner call name raw s ctx log) :
    Routed s ctx log := by
  induction h with
  | start => exact ⟨by simp, fun _ => ⟨rfl, rfl⟩, fun _ => rfl⟩
  | @asked s ctx log ws r before permitted ih =>
    -- Only the first jump can be granted; whatever else is asked for sends the script nowhere.
    rcases fresh_or_not_granted permitted (ctx.answer ws r).1 with ⟨fresh, spent⟩ | ⟨none, stays⟩
    · obtain ⟨empty, still⟩ := ih.fresh fresh
      have gone := targets_asked log call.line r (ctx.answer ws r).1
      rw [empty, List.nil_append] at gone
      refine ⟨?_, fun fresh => absurd fresh spent, fun _ => ?_⟩
      · rw [gone]
        exact Option.length_toList_le
      · rw [gone, Context.answer_jump, still, Option.or_none, Option.head?_toList]
    · have gone := targets_asked log call.line r (ctx.answer ws r).1
      rw [none, Option.toList_none, List.append_nil] at gone
      have jump : (ctx.answer ws r).2.1.jump = ctx.jump := by
        rw [Context.answer_jump, none, Option.none_or]
      refine ⟨gone ▸ ih.once, fun fresh => ?_, fun good => ?_⟩
      · rw [gone, jump]
        exact ih.fresh (stays ▸ fresh)
      · rw [Context.answer_failed, Bool.or_eq_false_iff] at good
        rw [gone, jump]
        exact ih.jump good.1
  | @nested ctx log own code quiet e before wrote evaluated ih =>
    -- The command was fresh, so where it has gone is where the nested line has gone.
    obtain ⟨empty, still⟩ := ih.fresh rfl
    obtain ⟨once, jump⟩ := route _ _ _ evaluated
    have gone : targets (log ++ ⟨call.line, .evaluated code⟩ :: own) = targets own := by
      rw [targets_nested, empty, List.nil_append]
    refine ⟨gone ▸ once, nofun, fun good => ?_⟩
    have fine : e.evaluation.failed = false := (Bool.or_eq_false_iff.mp good).2
    rw [fine] at jump
    rw [gone]
    simp only [Context.afterNested, jump, still]
    cases (targets own).head? <;> rfl

theorem evaluates_route (depth : Nat) : AllRoute (Evaluates depth) := by
  induction depth with
  | zero =>
    rintro call e log ⟨ended, -⟩
    cases ended
  | succ depth ih =>
    intro call e log course
    cases course with
    | idle => simp
    | unknown complaint => exact ⟨by simp, rfl⟩
    | @good _ _ _ ctx log runs reached =>
      have routed := reached.routed ih
      refine ⟨routed.once, ?_⟩
      show (if ctx.failed then none else ctx.jump) = if ctx.failed then none else _
      cases failed : ctx.failed with
      | true => rfl
      | false => exact routed.jump failed
    | fault runs reached mayFail complaint => exact ⟨(reached.routed ih).once, rfl⟩

end

end Line

/-! ## The end of a tick -/

/-- How a tick ends whose line has failed or gone to these lines. The instance is `current` unless
it was stopped in the meantime. -/
structure Instance.Moves (i : Instance) (failed : Bool) (targets : List Nat) (current : Bool)
    (ticked : Ticked) : Prop where
  source_eq : ticked.inst.source = i.source
  /-- While it runs, it goes where it was sent or one line further on. -/
  running : ticked.outcome = .running →
    ticked.inst.counter = targets.head?.getD (i.counter + 1) ∧
      ticked.inst.counter < i.source.length ∧ ticked.inst.counter ≠ i.counter
  /-- Otherwise it stays on the line that was its last. -/
  halted : ticked.outcome ≠ .running → ticked.inst.counter = i.counter
  cancelled_iff : ticked.outcome = .cancelled ↔ current = false
  failed_iff : ticked.outcome = .ended .failed ↔ current = true ∧ failed = true
  completed_iff : ticked.outcome = .ended .completed ↔
    current = true ∧ failed = false ∧ targets = [] ∧ i.counter + 1 = i.source.length

namespace Instance

variable {i j : Instance} {targets : List Nat}

theorem advance_moves (evaluation : Evaluation) (inside : i.counter < i.source.length)
    (once : targets.length ≤ 1)
    (reaches : ∀ target ∈ targets, target < i.source.length ∧ target ≠ i.counter)
    (jump : evaluation.jump = if evaluation.failed then none else targets.head?) :
    i.Moves evaluation.failed targets true (i.advance evaluation) := by
  cases failed : evaluation.failed with
  | true =>
    have ended : i.advance evaluation = ⟨i, .ended .failed⟩ := by simp [advance, failed]
    rw [ended]
    constructor <;> simp
  | false =>
    rw [failed] at jump
    match targets, once with
    | [], _ =>
      -- Nobody has sent it anywhere, so it goes on if there is a next line.
      by_cases more : i.counter + 1 < i.source.length
      · have next : i.advance evaluation = ⟨{ i with counter := i.counter + 1 }, .running⟩ := by
          simp [advance, failed, jump, more]
        rw [next]
        constructor <;> simp <;> omega
      · have ended : i.advance evaluation = ⟨i, .ended .completed⟩ := by
          simp [advance, failed, jump, more]
        rw [ended]
        constructor <;> simp
        omega
    | [target], _ =>
      have gone : i.advance evaluation = ⟨{ i with counter := target }, .running⟩ := by
        simp [advance, failed, jump]
      obtain ⟨within, elsewhere⟩ := reaches target (List.mem_singleton_self target)
      rw [gone]
      constructor <;> simp [within, elsewhere]

/-- The instance may have other variables by now. -/
theorem Moves.of_fixed_eq {failed current : Bool} {ticked : Ticked}
    (h : j.Moves failed targets current ticked) (same : j.fixed = i.fixed) :
    i.Moves failed targets current ticked := by
  have source : j.source = i.source := congrArg (·.source) same
  have counter : j.counter = i.counter := congrArg (·.counter) same
  obtain ⟨source_eq, running, halted, cancelled, failed, completed⟩ := h
  rw [source] at source_eq running completed
  rw [counter] at running halted completed
  exact ⟨source_eq, running, halted, cancelled, failed, completed⟩

theorem conclude_moves {e : Line.Ended} (ws : Workspace)
    (owner : e.owner.map fixed = some i.fixed) (inside : i.counter < i.source.length)
    (once : targets.length ≤ 1)
    (reaches : ∀ target ∈ targets, target < i.source.length ∧ target ≠ i.counter)
    (jump : e.evaluation.jump = if e.evaluation.failed then none else targets.head?) :
    i.Moves e.evaluation.failed targets (ws.isCurrent i) (i.conclude e ws).1 := by
  obtain ⟨j, mine, same⟩ := Option.map_eq_some_iff.mp owner
  have current := ws.isCurrent_congr (entry_eq_of_fixed_eq same)
  have source : j.source = i.source := congrArg (·.source) same
  have counter : j.counter = i.counter := congrArg (·.counter) same
  cases running : ws.isCurrent i with
  | true =>
    have went : (i.conclude e ws).1 = j.advance e.evaluation := by
      simp [conclude, mine, current, running]
    rw [went]
    rw [← source, ← counter] at inside reaches
    exact (advance_moves e.evaluation inside once reaches jump).of_fixed_eq same
  | false =>
    have stopped : (i.conclude e ws).1 = ⟨j, .cancelled⟩ := by
      simp [conclude, mine, current, running]
    rw [stopped]
    constructor <;> simp [source, counter]

/-! ## Ticks -/

/-- The journal of the line that an instance is on. -/
def lineJournal (i : Instance) (line : String) (ws : Workspace) (found : List Workspace) :
    Journal Line.Ended :=
  Line.journal (Line.depthBound line i.extent) ⟨{}, line, some i, []⟩ ws found

variable {ws last : Workspace} {found left : List Workspace} {line : String}

theorem lineJournal_result (i : Instance) (line : String) (ws : Workspace)
    (found : List Workspace) :
    (i.lineJournal line ws found).result =
      (Line.evaluate (Line.depthBound line i.extent) {} line (some i) [] ws).finish found := by
  rw [lineJournal, Line.journal_result, Line.Call.evaluate]

theorem lineJournal_evaluates (i : Instance) (line : String) (standard : ws.Standard)
    (all : AllStandard found) :
    Line.Evaluates (Line.depthBound line i.extent) ⟨{}, line, some i, []⟩
      ((i.lineJournal line ws found).result.map (·.value))
      (i.lineJournal line ws found).entries :=
  Line.journal_evaluates _ _ standard all

/-- A tick ends where its line has ended. -/
theorem finish_tick {r : Finished Ticked} (here : i.source[i.counter]? = some line)
    (ends : (i.tick ws).finish found = some r) :
    ∃ e before, (i.lineJournal line ws found).result = some ⟨e, before, r.left⟩ ∧
      r.value = (i.conclude e before).1 ∧ r.last = (i.conclude e before).2 := by
  rw [lineJournal_result]
  simp only [tick, here, Run.finish_bind, Option.bind_eq_some_iff] at ends
  obtain ⟨⟨e, before, left⟩, evaluated, concluded⟩ := ends
  obtain rfl := Option.some.inj concluded
  exact ⟨e, before, evaluated, rfl, rfl⟩

/-- Where the end of a line leads, by what its journal says. -/
theorem lineJournal_moves (standard : ws.Standard) (all : AllStandard found)
    (here : i.source[i.counter]? = some line) {e : Line.Ended} {before : Workspace}
    (ends : (i.lineJournal line ws found).result = some ⟨e, before, left⟩) :
    (Line.targets (i.lineJournal line ws found).entries).length ≤ 1 ∧
      i.Moves e.evaluation.failed (Line.targets (i.lineJournal line ws found).entries)
        (before.isCurrent i) (i.conclude e before).1 := by
  have course := lineJournal_evaluates i line standard all
  rw [ends] at course
  have proper := Line.evaluates_proper _ _ _ _ course
  obtain ⟨once, jump⟩ := Line.evaluates_route _ _ _ _ course
  have owner := Line.evaluates_keepsOwner _ _ _ _ course
  have inside : i.counter < i.source.length := (List.getElem?_eq_some_iff.mp here).1
  refine ⟨once, conclude_moves before owner inside once (fun target mem => ?_) jump⟩
  obtain ⟨entry, mem, granted⟩ := List.mem_filterMap.mp mem
  obtain ⟨-, _, ⟨⟩, within, elsewhere⟩ := (proper entry mem).target target granted
  exact ⟨within, elsewhere⟩

/-! ## Any instance -/

/-- An instance that has run so far: it is on its first line, or a tick has left it running. -/
inductive Underway : Instance → Prop where
  | start {i : Instance} (first : i.counter = 0) : Underway i
  | tick {i : Instance} {ws : Workspace} {found : List Workspace} {r : Finished Ticked}
      (before : Underway i) (standard : ws.Standard) (all : AllStandard found)
      (ends : (i.tick ws).finish found = some r) (running : r.value.outcome = .running) :
      Underway r.value.inst

/-- A tick that finds no line. -/
theorem finish_tick_of_none {r : Finished Ticked} (none : i.source[i.counter]? = none)
    (ends : (i.tick ws).finish found = some r) : r = ⟨⟨i, .ended .completed⟩, ws, found⟩ := by
  simp only [tick, none, Run.finish] at ends
  exact (Option.some.inj ends).symm

/-- The counter stands on a line, if there are lines. -/
theorem Underway.inside (h : i.Underway) : i.source = [] ∨ i.counter < i.source.length := by
  cases h with
  | start first =>
    rw [first]
    exact (Nat.eq_zero_or_pos _).imp_left List.length_eq_zero_iff.mp
  | @tick i ws found r before standard all ends running =>
    cases here : i.source[i.counter]? with
    | none =>
      obtain rfl := finish_tick_of_none here ends
      cases running
    | some line =>
      obtain ⟨e, before, result, value, -⟩ := finish_tick here ends
      obtain ⟨-, moves⟩ := lineJournal_moves standard all here result
      rw [← value] at moves
      rw [moves.source_eq]
      exact .inr (moves.running running).2.1

/-- A tick of an instance that has run so far: without a line there is no source at all. Otherwise
the line is evaluated. Through `goto` and `skip`, however deep, it goes to at most one line, and how
the tick ends follows from that line, from whether an error was reported and from whether the
instance is still current. -/
theorem tick_moves_inside_source (underway : i.Underway) (standard : ws.Standard)
    (all : AllStandard found) {ticked : Ticked}
    (ends : (i.tick ws).finish found = some ⟨ticked, last, left⟩) :
    (i.source[i.counter]? = none ∧ i.source = [] ∧ ticked = ⟨i, .ended .completed⟩) ∨
      ∃ line e before, i.source[i.counter]? = some line ∧
        (Line.evaluate (Line.depthBound line i.extent) {} line (some i) [] ws).finish found =
          some ⟨e, before, left⟩ ∧
        (∀ entry ∈ (i.lineJournal line ws found).entries, entry.target? ≠ none →
          Line.command? entry.line = some "goto" ∨ Line.command? entry.line = some "skip") ∧
        (Line.targets (i.lineJournal line ws found).entries).length ≤ 1 ∧
        i.Moves e.evaluation.failed (Line.targets (i.lineJournal line ws found).entries)
          (before.isCurrent i) ticked := by
  cases here : i.source[i.counter]? with
  | none =>
    have outside : i.source.length ≤ i.counter := List.getElem?_eq_none_iff.mp here
    have empty : i.source = [] := underway.inside.resolve_right (Nat.not_lt.mpr outside)
    cases finish_tick_of_none here ends
    exact .inl ⟨rfl, empty, rfl⟩
  | some line =>
    obtain ⟨e, before, result, value, -⟩ := finish_tick here ends
    obtain ⟨once, moves⟩ := lineJournal_moves standard all here result
    rw [← value] at moves
    refine .inr ⟨line, e, before, rfl, ?_, fun entry mem sent => ?_, once, moves⟩
    · rw [← lineJournal_result, result]
    · obtain ⟨index, granted⟩ := Option.ne_none_iff_exists'.mp sent
      have proper := Line.evaluates_proper _ _ _ _ (lineJournal_evaluates i line standard all)
        entry mem
      exact (proper.target index granted).1

/-- A script that skips a line, if a condition holds. -/
def leaper : Instance :=
  .ofText "leap" "if $x == on skip 2\nprint never\nprint there" 1 1

/-- It runs, where the condition holds. -/
def leaping : Workspace :=
  { Workspace.isolated with
    globals := ⟨⟨[("x", .text "on")]⟩⟩
    scheduler :=
      { active := [leaper.entry], batches := [⟨1, 1⟩], lastBatch := 1, nextGeneration := 2 } }

theorem leaper_moves_inside_source :
    ∃ ticked last left, (leaper.tick leaping).finish [] = some ⟨ticked, last, left⟩ ∧
      ticked.outcome = .running ∧ ticked.inst.counter = 2 ∧
      ((leaper.source[leaper.counter]? = none ∧ leaper.source = [] ∧
          ticked = ⟨leaper, .ended .completed⟩) ∨
        ∃ line e before, leaper.source[leaper.counter]? = some line ∧
          (Line.evaluate (Line.depthBound line leaper.extent) {} line (some leaper) []
            leaping).finish [] = some ⟨e, before, left⟩ ∧
          (∀ entry ∈ (leaper.lineJournal line leaping []).entries, entry.target? ≠ none →
            Line.command? entry.line = some "goto" ∨ Line.command? entry.line = some "skip") ∧
          (Line.targets (leaper.lineJournal line leaping []).entries).length ≤ 1 ∧
          leaper.Moves e.evaluation.failed
            (Line.targets (leaper.lineJournal line leaping []).entries)
            (before.isCurrent leaper) ticked) := by
  have ends : ((leaper.tick leaping).finish []).any fun r =>
      r.value.outcome == .running && r.value.inst.counter == 2 := by
    rw [leaping, Workspace.isolated_eq]
    decide +kernel
  obtain ⟨⟨ticked, last, left⟩, ends, running⟩ := (Option.any_eq_true _ _).mp ends
  obtain ⟨outcome, counter⟩ := Bool.and_eq_true_iff.mp running
  have standard : leaping.Standard := ⟨by rw [leaping, Workspace.isolated]⟩
  exact ⟨ticked, last, left, ends, eq_of_beq outcome, eq_of_beq counter,
    tick_moves_inside_source (.start rfl) standard allStandard_nil ends⟩

end Instance

end LineScript
