import LineScript.Proofs.Line.Course

/-!
# Where evaluated text comes from

A line can have other lines evaluated, and the values of variables have a say in which. They have
none in what those lines are: each is a line of the source, or it stands in the line that evaluates
it, before any reference in it is replaced. References are replaced only in what is written, too,
never in what came out of a replacement.

`Entry.Proper` is what a builtin command may do, by the line that it stands in; every entry of a
journal is proper. All text that is evaluated is among `texts`, which is made of the line and the
source alone.
-/

namespace LineScript

open Line (command?)

/-! ## All text there is -/

/-- The lines that a line of this owner can have visited. -/
def sourceOf (owner : Option Instance) : List String :=
  (owner.map (·.source)).getD []

/-- The line, the lines of the source, and all parts of them without carriage returns. -/
def texts (line : String) (source : List String) : List String :=
  (line :: source) ++ (line :: source).flatMap fun written => Text.parts (Text.dropReturns written)

section

variable {line code text : String} {source : List String}

theorem mem_texts_iff : text ∈ texts line source ↔ ∃ written ∈ line :: source,
    text = written ∨ Text.IsPart text (Text.dropReturns written) := by
  rw [texts, List.mem_append, List.mem_flatMap]
  constructor
  · rintro (here | ⟨written, mem, part⟩)
    · exact ⟨text, here, .inl rfl⟩
    · exact ⟨written, mem, .inr (Text.mem_parts_iff.mp part)⟩
  · rintro ⟨written, mem, rfl | part⟩
    · exact .inl mem
    · exact .inr ⟨written, mem, Text.mem_parts_iff.mpr part⟩

theorem self_mem_texts (line : String) (source : List String) : line ∈ texts line source :=
  mem_texts_iff.mpr ⟨line, List.mem_cons_self, .inl rfl⟩

/-- A text among them brings no others: what stands in a part stands in the whole. -/
theorem texts_trans (first : code ∈ texts line source) (second : text ∈ texts code source) :
    text ∈ texts line source := by
  obtain ⟨written, mem, whole⟩ := mem_texts_iff.mp first
  obtain ⟨other, otherMem, part⟩ := mem_texts_iff.mp second
  rcases List.mem_cons.mp otherMem with rfl | visited
  · rcases part with rfl | part
    · exact first
    · refine mem_texts_iff.mpr ⟨written, mem, .inr ?_⟩
      rcases whole with rfl | whole
      · exact part
      · have inside := whole.dropReturns
        rw [Text.dropReturns_dropReturns] at inside
        exact part.trans inside
  · exact mem_texts_iff.mpr ⟨other, List.mem_cons_of_mem line visited, part⟩

end

/-! ## Proper entries -/

/-- The line evaluates a line of the source, or some of its own text. -/
def Entry.Quotes (owner : Option Instance) (entry : Entry) (code : String) : Prop :=
  command? entry.line = some "visit" ∧ code ∈ sourceOf owner ∨
    (command? entry.line = some "if" ∨ command? entry.line = some "assign") ∧
      Text.IsPart code (Text.dropReturns entry.line)

/-- What a builtin command may do on the way through a line of this owner. -/
structure Entry.Proper (line : String) (owner : Option Instance) (entry : Entry) : Prop where
  known : entry.line ∈ texts line (sourceOf owner)
  nested : ∀ code, entry.nested? = some code → entry.Quotes owner code
  template : ∀ text, entry.template? = some text →
    Text.IsPart text (Text.dropReturns entry.line)
  target : ∀ index, entry.target? = some index →
    (command? entry.line = some "goto" ∨ command? entry.line = some "skip") ∧
      Conduct.Reaches owner index

theorem Entry.Quotes.mem_texts {owner : Option Instance} {entry : Entry} {code : String}
    (h : entry.Quotes owner code) : code ∈ texts entry.line (sourceOf owner) := by
  rcases h with ⟨-, found⟩ | ⟨-, part⟩
  · exact mem_texts_iff.mpr ⟨code, List.mem_cons_of_mem _ found, .inl rfl⟩
  · exact mem_texts_iff.mpr ⟨entry.line, List.mem_cons_self, .inr part⟩

section

variable {owner other : Option Instance}
  (same : other.map Instance.fixed = owner.map Instance.fixed)
include same

theorem sourceOf_eq_of_fixed_eq : sourceOf other = sourceOf owner := by
  have sources := congrArg (Option.map (·.source)) same
  simp only [Option.map_map, Function.comp_def, Instance.fixed] at sources
  rw [sourceOf, sourceOf, sources]

theorem reaches_of_fixed_eq {index : Nat} (h : Conduct.Reaches other index) :
    Conduct.Reaches owner index := by
  obtain ⟨i, rfl, inside, elsewhere⟩ := h
  obtain ⟨j, rfl, eq⟩ := Option.map_eq_some_iff.mp same.symm
  have source : j.source = i.source := congrArg (·.source) eq
  have counter : j.counter = i.counter := congrArg (·.counter) eq
  exact ⟨j, rfl, source ▸ inside, counter ▸ elsewhere⟩

/-- What is proper in a nested line is proper in the line that it is nested in. -/
theorem Entry.Proper.of_nested {line code : String} {entry : Entry} (h : entry.Proper code other)
    (quoted : code ∈ texts line (sourceOf owner)) : entry.Proper line owner where
  known := texts_trans quoted (sourceOf_eq_of_fixed_eq same ▸ h.known)
  nested code nested :=
    (h.nested code nested).imp_left fun ⟨visit, found⟩ =>
      ⟨visit, sourceOf_eq_of_fixed_eq same ▸ found⟩
  template := h.template
  target index target :=
    ⟨(h.target index target).1, reaches_of_fixed_eq same (h.target index target).2⟩

end

namespace Line

section

variable {inner : Outcomes} {call : Call} {name raw : String} {s : Stage} {ctx : Context}
  {log : List Entry}

theorem proper_asked (runs : Runs call.line name raw) {r : Request}
    (permitted : Conduct.permits name raw call.owner s r) (reply : r.Reply) :
    Entry.Proper call.line call.owner ⟨call.line, .asked r reply⟩ where
  known := self_mem_texts call.line _
  nested _ nested := by cases nested
  template text template := by
    cases r with
    | expand written =>
      obtain rfl := Option.some.inj template
      exact permitted.trans runs.written
    | _ => cases template
  target index target := by
    cases r with
    | jump line =>
      obtain ⟨-, either, reaches⟩ := permitted
      cases reply with
      | false => cases target
      | true =>
        obtain rfl := Option.some.inj target
        rcases either with rfl | rfl
        · exact ⟨.inl runs.command, reaches⟩
        · exact ⟨.inr runs.command, reaches⟩
    | _ => cases target

theorem quotes_of_wrote (runs : Runs call.line name raw) {code : String}
    (wrote : Conduct.Wrote name raw call.owner code) :
    Entry.Quotes call.owner ⟨call.line, .evaluated code⟩ code := by
  rcases wrote with ⟨rfl, i, owner, found⟩ | ⟨rfl | rfl, part⟩
  · exact .inl ⟨runs.command, by simpa [sourceOf, owner] using found⟩
  · exact .inr ⟨.inl runs.command, part.trans runs.written⟩
  · exact .inr ⟨.inr runs.command, part.trans runs.written⟩

/-- The entries of the lines are proper, also of those that have not ended. -/
def AllProper (inner : Outcomes) : Prop :=
  ∀ call result log, inner call result log → ∀ entry ∈ log, entry.Proper call.line call.owner

/-- A nested line adds its own entries, after the one that says that it is evaluated. -/
theorem proper_nested (keeps : KeepsOwner inner) (proper : AllProper inner)
    (runs : Runs call.line name raw) (reached : Reached inner call name raw s ctx log)
    (before : ∀ entry ∈ log, entry.Proper call.line call.owner) {code : String} {quiet : Bool}
    {result : Option Ended} {own : List Entry} (wrote : Conduct.Wrote name raw call.owner code)
    (evaluated : inner (nestedCall ctx code quiet) result own) :
    ∀ entry ∈ log ++ ⟨call.line, .evaluated code⟩ :: own, entry.Proper call.line call.owner := by
  have quotes := quotes_of_wrote runs wrote
  refine List.forall_mem_append.mpr ⟨before, List.forall_mem_cons.mpr ⟨?_, fun entry mem => ?_⟩⟩
  · refine ⟨self_mem_texts call.line _, ?_, nofun, nofun⟩
    rintro _ ⟨⟩
    exact quotes
  · exact (proper _ _ _ evaluated entry mem).of_nested (reached.owner_eq keeps) quotes.mem_texts

theorem Reached.proper (keeps : KeepsOwner inner) (proper : AllProper inner)
    (runs : Runs call.line name raw) (h : Reached inner call name raw s ctx log) :
    ∀ entry ∈ log, entry.Proper call.line call.owner := by
  induction h with
  | start => simp
  | @asked s ctx log ws r before permitted ih =>
    have last := proper_asked runs permitted (ctx.answer ws r).1
    exact List.forall_mem_append.mpr ⟨ih, List.forall_mem_singleton.mpr last⟩
  | nested before wrote evaluated ih =>
    exact proper_nested keeps proper runs before ih wrote evaluated

theorem evaluates_proper (depth : Nat) : AllProper (Evaluates depth) := by
  induction depth with
  | zero =>
    rintro call result log ⟨-, rfl⟩
    simp
  | succ depth ih =>
    intro call result log course
    have keeps := evaluates_keepsOwner depth
    cases course with
    | idle => simp
    | unknown complaint => simp
    | good runs reached => exact reached.proper keeps ih runs
    | fault runs reached mayFail complaint => exact reached.proper keeps ih runs
    | cut runs cut =>
      cases cut with
      | waiting reached => exact reached.proper keeps ih runs
      | inside reached wrote unfinished =>
        exact proper_nested keeps ih runs reached (reached.proper keeps ih runs) wrote unfinished

end

/-! ## Any line -/

/-- Whatever the variables are: the lines that are evaluated on behalf of others are lines of the
source, or stand in the line that evaluates them, and all of them are among finitely many texts that
the line and the source give. References are replaced in what is written and nowhere else. -/
theorem evaluated_text_is_written (depth : Nat) (mode : Mode) (line : String)
    (owner : Option Instance) (transcript : List Message) {ws : Workspace}
    {found : List Workspace} (standard : ws.Standard) (all : AllStandard found) :
    let kept := journal depth ⟨mode, line, owner, transcript⟩ ws found
    kept.result = (evaluate depth mode line owner transcript ws).finish found ∧
      ∀ entry ∈ kept.entries,
        entry.line ∈ texts line (sourceOf owner) ∧
        (∀ code, entry.nested? = some code →
          entry.Quotes owner code ∧ code ∈ texts line (sourceOf owner)) ∧
        (∀ text, entry.template? = some text →
          Text.IsPart text (Text.dropReturns entry.line)) := by
  intro kept
  refine ⟨journal_result depth _ ws found, fun entry mem => ?_⟩
  have proper := evaluates_proper depth _ _ _ (journal_evaluates depth _ standard all) entry mem
  refine ⟨proper.known, fun code nested => ?_, proper.template⟩
  have quotes := proper.nested code nested
  exact ⟨quotes, texts_trans proper.known quotes.mem_texts⟩

/-- A script that prints a variable whose value looks like a reference. -/
def echo : Instance :=
  { Instance.ofText "echo" "if $x != stop print $x" 0 0 with
    locals := ⟨⟨[("x", .text "$y")]⟩⟩ }

/-- The journal of its line. -/
def echoed : Journal Ended :=
  journal 3 ⟨{}, "if $x != stop print $x", some echo, []⟩ .isolated []

theorem echo_evaluates_what_is_written :
    (echoed.entries.filterMap Entry.nested? = ["print $x"] ∧
      echoed.entries.filterMap Entry.template? = ["$x", "stop", "$x"]) ∧
      echoed.result =
        (evaluate 3 {} "if $x != stop print $x" (some echo) [] .isolated).finish [] ∧
      ∀ entry ∈ echoed.entries,
        entry.line ∈ texts "if $x != stop print $x" (sourceOf (some echo)) ∧
        (∀ code, entry.nested? = some code → entry.Quotes (some echo) code ∧
          code ∈ texts "if $x != stop print $x" (sourceOf (some echo))) ∧
        (∀ text, entry.template? = some text →
          Text.IsPart text (Text.dropReturns entry.line)) :=
  ⟨by rw [echoed, Workspace.isolated_eq]; decide +kernel,
    evaluated_text_is_written 3 {} "if $x != stop print $x" (some echo) []
      Workspace.isolated_standard allStandard_nil⟩

end Line

end LineScript
