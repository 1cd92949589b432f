import LineScript.Proofs.Command.Catalogue
import LineScript.Proofs.Line.Effects
import LineScript.Proofs.Line.Journal
import LineScript.Proofs.Workspace.Start

/-!
# The course of a line

What can become of a line if there are no commands but the builtin ones, as a relation: it is idle,
its command is unknown, or its command does what the protocol of builtin commands permits and ends,
well or in a fault, or has not ended yet. `Course` says this of one line, where the lines nested in
it are given; `Evaluates` closes it to a depth. Both speak of the journal of the line, so that what
a line says and where it goes can be compared with what was asked for.

`journal_evaluates` is the one place where the builtin commands are looked at: every journal of a
line is a course. All that is said of lines further on follows from courses, by a step for each
request and each nested line, and from there to any depth.
-/

namespace LineScript

/-! ## Workspaces without further commands -/

/-- The commands are the builtin ones. -/
structure Workspace.Standard (ws : Workspace) : Prop where
  registry_eq : ws.registry = Registry.standard

/-- So are they in all workspaces that are found after waits. -/
def AllStandard (found : List Workspace) : Prop :=
  ∀ ws ∈ found, ws.Standard

theorem allStandard_nil : AllStandard [] := by
  simp [AllStandard]

/-- A workspace without scripts in which nothing has happened yet. -/
def Workspace.isolated : Workspace :=
  { config := .isolated, registry := Registry.standard, device := .recording, store := .empty }

theorem Workspace.isolated_standard : isolated.Standard where
  registry_eq := by rw [isolated]

theorem Workspace.isolated_eq : isolated =
    { config := .isolated, registry := .catalogue builtins, device := .recording,
      store := .empty } := by
  rw [← Registry.standard_eq_catalogue]
  rfl

namespace Workspace.Standard

variable {ws : Workspace}

theorem answer (h : ws.Standard) (ctx : Context) (r : Request) :
    (ctx.answer ws r).2.2.Standard := by
  obtain ⟨globals, terminal, device, entropy, same⟩ := ctx.answer_workspace ws r
  rw [same]
  exact ⟨h.registry_eq⟩

theorem startBatch (h : ws.Standard) {invoker : Option String} {names : List String}
    {started : Started} {ws' : Workspace}
    (ok : ws.startBatch invoker names = .ok (started, ws')) : ws'.Standard := by
  obtain ⟨-, scripts, e, -, -, -, rfl⟩ := startBatch_ok ok
  exact ⟨h.registry_eq⟩

end Workspace.Standard

/-- A line that begins with a name of a builtin command runs this command. -/
theorem Line.read_runs_of_builtin {registry : Registry} (holds : registry.HoldsBuiltins)
    {line : String} (name : String) {c : Command} {args : List String} (builtin : c ∈ builtins)
    (counts : isIdle (content line) = false) (split : Text.fields (content line) = name :: args)
    (named : Text.lowercase name ∈ c.schema.names) : read registry line = .runs c args :=
  read_runs_of_find? counts split (holds.find? builtin named)

/-! ## Journals that lead somewhere -/

namespace Journal

variable {α β : Type} {before : List Entry} {P : α → List Entry → Prop} {Q : List Entry → Prop}
  {P' : β → List Entry → Prop} {Q' : List Entry → Prop}

/-- After the entries that were there before, the journal ends with `P`, in standard workspaces, or
it stops where `Q` holds. -/
structure Leads (before : List Entry) (P : α → List Entry → Prop) (Q : List Entry → Prop)
    (j : Journal α) : Prop where
  ended : ∀ r, j.result = some r →
    P r.value (before ++ j.entries) ∧ r.last.Standard ∧ AllStandard r.left
  stopped : j.result = none → Q (before ++ j.entries)

theorem leads_done {value : α} {ws : Workspace} {found : List Workspace} (h : P value before)
    (standard : ws.Standard) (all : AllStandard found) :
    (done value ws found).Leads before P Q where
  ended := by
    rintro _ ⟨⟩
    rw [done, List.append_nil]
    exact ⟨h, standard, all⟩
  stopped := nofun

theorem leads_cut (h : Q before) : (cut : Journal α).Leads before P Q where
  ended _ ended := by cases ended
  stopped _ := by
    rw [cut, List.append_nil]
    exact h

theorem Leads.note {entry : Entry} {j : Journal α} (h : j.Leads (before ++ [entry]) P Q) :
    (j.note entry).Leads before P Q where
  ended r ended := by simpa [Journal.note] using h.ended r ended
  stopped stopped := by simpa [Journal.note] using h.stopped stopped

/-- What a journal leads to by itself, after other entries. -/
theorem Leads.after {j : Journal α} (h : j.Leads [] P Q) (before : List Entry) :
    j.Leads before (fun value log => ∃ own, log = before ++ own ∧ P value own)
      (fun log => ∃ own, log = before ++ own ∧ Q own) where
  ended r ended := ⟨⟨_, rfl, (h.ended r ended).1⟩, (h.ended r ended).2⟩
  stopped stopped := ⟨_, rfl, h.stopped stopped⟩

theorem Leads.bind {j : Journal α} {f : α → Workspace → List Workspace → Journal β}
    (h : j.Leads before P Q)
    (rest : ∀ value ws found log, P value log → ws.Standard → AllStandard found →
      (f value ws found).Leads log P' Q')
    (stop : ∀ log, Q log → Q' log) : (j.bind f).Leads before P' Q' := by
  unfold Journal.bind
  cases result : j.result with
  | none => exact ⟨fun _ ended => (by cases ended), fun _ => stop _ (h.stopped result)⟩
  | some r =>
    obtain ⟨here, standard, all⟩ := h.ended r result
    have next := rest r.value r.last r.left _ here standard all
    exact ⟨fun r ended => by simpa using next.ended r ended,
      fun stopped => by simpa using next.stopped stopped⟩

theorem Leads.waitFor {wait : Wait} {ws : Workspace} {found : List Workspace}
    {next : Workspace → List Workspace → Journal α} (standard : ws.Standard)
    (all : AllStandard found) (stop : Q before)
    (rest : ∀ ws found, ws.Standard → AllStandard found → (next ws found).Leads before P Q) :
    (waitFor wait ws found next).Leads before P Q := by
  unfold Journal.waitFor
  split
  · exact rest ws found standard all
  · cases found with
    | nil => exact leads_cut stop
    | cons later found =>
      obtain ⟨here, others⟩ := List.forall_mem_cons.mp all
      exact rest later found here others

end Journal

namespace Line

/-! ## Courses -/

/-- What may come of lines. There is no end for one that has not ended. -/
abbrev Outcomes := Call → Option Ended → List Entry → Prop

/-- Where the builtin command `name` can come to with the arguments `raw`: its stage, its context
and its entries so far. -/
inductive Reached (inner : Outcomes) (call : Call) (name raw : String) :
    Stage → Context → List Entry → Prop where
  | start : Reached inner call name raw .fresh call.context []
  | asked {s : Stage} {ctx : Context} {log : List Entry} (ws : Workspace) (r : Request)
      (before : Reached inner call name raw s ctx log)
      (permitted : Conduct.permits name raw call.owner s r) :
      Reached inner call name raw (Conduct.answered s r) (ctx.answer ws r).2.1
        (log ++ [⟨call.line, .asked r (ctx.answer ws r).1⟩])
  | nested {ctx : Context} {log own : List Entry} {code : String} {quiet : Bool} {e : Ended}
      (before : Reached inner call name raw .fresh ctx log)
      (wrote : Conduct.Wrote name raw call.owner code)
      (evaluated : inner (nestedCall ctx code quiet) (some e) own) :
      Reached inner call name raw (.spent e.evaluation.failed)
        (ctx.afterNested e.evaluation e.owner e.transcript)
        (log ++ ⟨call.line, .evaluated code⟩ :: own)

/-- The entries of a command that has not ended: it waits, or a line in it has not ended. -/
inductive Cut (inner : Outcomes) (call : Call) (name raw : String) : List Entry → Prop where
  | waiting {s : Stage} {ctx : Context} {log : List Entry}
      (reached : Reached inner call name raw s ctx log) : Cut inner call name raw log
  | inside {ctx : Context} {log own : List Entry} {code : String} {quiet : Bool}
      (reached : Reached inner call name raw .fresh ctx log)
      (wrote : Conduct.Wrote name raw call.owner code)
      (unfinished : inner (nestedCall ctx code quiet) none own) :
      Cut inner call name raw (log ++ ⟨call.line, .evaluated code⟩ :: own)

/-- What is said of a line that failed: its name is unknown, or a command has ended in a fault. -/
inductive Complaint : String → Prop where
  | unknown {name : String} (h : Registry.standard.find? name = none) :
      Complaint (unknownCommand name)
  | fault {name : String} {c : Command} (fault : Fault)
      (h : Registry.standard.find? name = some c) : Complaint (faultText c.schema fault)

/-- What can become of a line, and its entries. -/
inductive Course (inner : Outcomes) (call : Call) : Option Ended → List Entry → Prop where
  | idle : Course inner call (some ⟨{}, call.owner, call.transcript⟩) []
  | unknown {color text : String} (complaint : Complaint text) :
      Course inner call (some (ended (call.context.report color text))) []
  | good {name raw : String} {s : Stage} {ctx : Context} {log : List Entry}
      (runs : Runs call.line name raw) (reached : Reached inner call name raw s ctx log) :
      Course inner call (some (ended ctx)) log
  | fault {name raw color text : String} {s : Stage} {ctx : Context} {log : List Entry}
      (runs : Runs call.line name raw) (reached : Reached inner call name raw s ctx log)
      (mayFail : s.Open) (complaint : Complaint text) :
      Course inner call (some (ended (ctx.report color text))) log
  | cut {name raw : String} {log : List Entry} (runs : Runs call.line name raw)
      (cut : Cut inner call name raw log) : Course inner call none log

/-- What can become of a line with lines nested `depth - 1` deep below it. -/
def Evaluates : Nat → Outcomes
  | 0 => fun _ result log => result = none ∧ log = []
  | depth + 1 => Course (Evaluates depth)

/-! ## What does not change on the way -/

section

variable {inner : Outcomes} {call : Call} {name raw : String} {s : Stage} {ctx : Context}
  {log : List Entry}

/-- The lines leave their owner alone but for its variables and settings. -/
def KeepsOwner (inner : Outcomes) : Prop :=
  ∀ call e log, inner call (some e) log →
    e.owner.map Instance.fixed = call.owner.map Instance.fixed

theorem Reached.line_eq (h : Reached inner call name raw s ctx log) : ctx.line = call.line := by
  induction h with
  | start => rfl
  | asked ws r before permitted ih => rw [Context.answer_line, ih]
  | nested before wrote evaluated ih => exact ih

theorem Reached.owner_eq (keeps : KeepsOwner inner) (h : Reached inner call name raw s ctx log) :
    ctx.owner.map Instance.fixed = call.owner.map Instance.fixed := by
  induction h with
  | start => rfl
  | asked ws r before permitted ih => rw [Context.answer_owner, ih]
  | nested before wrote evaluated ih => rw [← ih]; exact keeps _ _ _ evaluated

theorem evaluates_keepsOwner (depth : Nat) : KeepsOwner (Evaluates depth) := by
  induction depth with
  | zero =>
    rintro call e log ⟨ended, -⟩
    cases ended
  | succ depth ih =>
    intro call e log course
    cases course with
    | idle => rfl
    | unknown complaint => rfl
    | good runs reached => exact reached.owner_eq ih
    | fault runs reached mayFail complaint => exact (reached.owner_eq ih :)

end

/-! ## Every journal is a course -/

/-- What a line answers about its owner is true, also of what the owner was at first. -/
theorem truthful_answer {ctx : Context} {owner : Option Instance}
    (same : ctx.owner.map Instance.fixed = owner.map Instance.fixed) (ws : Workspace)
    (r : Request) : r.Truthful owner (ctx.answer ws r).1 := by
  have found : ∀ i, owner = some i → ∃ j, ctx.owner = some j ∧ j.fixed = i.fixed := by
    rintro i rfl
    exact Option.map_eq_some_iff.mp same
  cases r with
  | currentIndex =>
    intro i mine
    obtain ⟨j, owner, fixed⟩ := found i mine
    simp only [Context.answer, Context.currentIndex, owner]
    exact congrArg (·.counter) fixed
  | source =>
    intro i mine
    obtain ⟨j, owner, fixed⟩ := found i mine
    simp only [Context.answer, Context.source, owner]
    exact congrArg (·.source) fixed
  | instanceName => exact name_eq_of_fixed_eq same
  | _ => trivial

section

variable {inner : Outcomes} {nested : Recorder} {call : Call} {name raw : String} {s : Stage}
  {ctx : Context} {log : List Entry}

/-- The journals of nested lines come to what is given for them. -/
def Follows (inner : Outcomes) (nested : Recorder) : Prop :=
  ∀ call ws found, ws.Standard → AllStandard found →
    (nested call ws found).Leads [] (fun e log => inner call (some e) log) (inner call none)

/-- A command that keeps to the protocol goes from one moment of its line to another. -/
theorem record_leads {α : Type} (keeps : KeepsOwner inner) (follows : Follows inner nested)
    (action : Action α) {post : Stage → α → Prop} {ws : Workspace} {found : List Workspace}
    (reached : Reached inner call name raw s ctx log)
    (ensures : action.Ensures (conduct name raw call.owner) call.owner s post)
    (standard : ws.Standard) (all : AllStandard found) :
    (record nested action ctx ws found).Leads log
      (fun result log => ∃ s, Reached inner call name raw s result.2 log ∧ post s result.1)
      (Cut inner call name raw) := by
  induction action generalizing s ctx log ws found with
  | done value => exact Journal.leads_done ⟨s, reached, ensures⟩ standard all
  | ask r next ih =>
    obtain ⟨permitted, rest⟩ := ensures
    have truthful := truthful_answer (reached.owner_eq keeps) ws r
    refine Journal.Leads.note ?_
    rw [reached.line_eq]
    exact ih _ (.asked ws r reached permitted) (rest _ truthful) (standard.answer ctx r) all
  | evaluate code quiet next ih =>
    obtain ⟨⟨rfl, wrote⟩, rest⟩ := ensures
    refine Journal.Leads.note ?_
    rw [reached.line_eq]
    have inside := (follows (nestedCall ctx code quiet) ws found standard all).after
      (log ++ [⟨call.line, .evaluated code⟩])
    refine inside.bind ?_ ?_
    · rintro e ws found _ ⟨own, rfl, evaluated⟩ standard all
      rw [List.append_assoc]
      exact ih _ (.nested reached wrote evaluated) (rest _) standard all
    · rintro _ ⟨own, rfl, unfinished⟩
      rw [List.append_assoc]
      exact .inside reached wrote unfinished
  | sleep duration next ih =>
    exact Journal.Leads.waitFor standard all (.waiting reached) fun ws found => ih reached ensures
  | runScripts names next ih =>
    simp only [record]
    split
    · exact ih _ reached (ensures _) standard all
    · rename_i started ws' ok
      exact Journal.Leads.waitFor (standard.startBatch ok) all (.waiting reached)
        fun ws found => ih _ reached (ensures _)
  | readInput next ih =>
    refine Journal.Leads.waitFor ?_ all (.waiting reached) fun ws found standard => ?_
    · exact ⟨standard.registry_eq⟩
    · exact ih _ reached (ensures _) ⟨standard.registry_eq⟩

theorem journal_follows (depth : Nat) : Follows (Evaluates depth) (journal depth) := by
  induction depth with
  | zero =>
    intro call ws found standard all
    exact Journal.leads_cut ⟨rfl, rfl⟩
  | succ depth ih =>
    intro call ws found standard all
    unfold journal recordLine
    rw [standard.registry_eq]
    cases reading : read Registry.standard call.line with
    | idle => exact Journal.leads_done .idle standard all
    | unknown name =>
      have missing := find?_of_read_unknown reading
      exact Journal.leads_done (.unknown (.unknown missing)) standard all
    | runs c args =>
      obtain ⟨name, -, known⟩ := find?_of_read_runs reading
      have runs := runs_of_read reading
      have behaves := Registry.behaves_of_find? known call.owner args
      refine (record_leads (evaluates_keepsOwner depth) ih (c.run args).run .start behaves
        standard all).bind ?_ fun log cut => .cut runs cut
      rintro ⟨result, ctx⟩ ws found log ⟨s, reached, post⟩ standard all
      cases result with
      | ok _ => exact Journal.leads_done (.good runs reached) standard all
      | error fault =>
        exact Journal.leads_done (.fault runs reached post (.fault fault known)) standard all

/-- Every journal of a line is a course. -/
theorem journal_evaluates (depth : Nat) (call : Call) {ws : Workspace} {found : List Workspace}
    (standard : ws.Standard) (all : AllStandard found) :
    Evaluates depth call ((journal depth call ws found).result.map (·.value))
      (journal depth call ws found).entries := by
  have leads := journal_follows depth call ws found standard all
  cases result : (journal depth call ws found).result with
  | none => exact leads.stopped result
  | some r => exact (leads.ended r result).1

/-- So is every evaluation that ends. -/
theorem evaluates_of_finish {depth : Nat} {call : Call} {ws : Workspace} {found : List Workspace}
    {r : Finished Ended} (standard : ws.Standard) (all : AllStandard found)
    (ends : (call.evaluate (evaluate depth) ws).finish found = some r) :
    Evaluates depth call (some r.value) (journal depth call ws found).entries := by
  have course := journal_evaluates depth call standard all
  rw [journal_result, ends] at course
  exact course

end

end Line

end LineScript
