import LineScript.Proofs.CommandLine.Argument
import LineScript.Proofs.Input.Service

/-!
# Comments in a session

A session looks at a line before the kernel does. For the kernel a line is idle if it is blank or a
comment, and comments begin with `#` or `//`; for the session every line that begins with a slash is
a directive. Main statement: an idle line shows nothing, and changes no variable, but if it begins
with a slash it is refused (`comments_are_silent_but_for_slashes`). What was waiting to be shown
would come with it, but between two lines of a session there is no such text (`Session.Quiet.uses`).
-/

namespace LineScript

/-! ## The first word -/

namespace Text

theorem head?_splitOnP (p : Char → Bool) (cs : List Char) :
    (cs.splitOnP p).head? = some (cs.takeWhile fun c => !p c) := by
  induction cs with
  | nil => rfl
  | cons c cs ih =>
    rw [List.splitOnP_cons_eq_if_modifyHead]
    cases blank : p c with
    | true => simp [blank]
    | false => simp [blank, ih]

/-- The first word of a text goes from its first character that is not blank to the next blank. -/
theorem head?_words (s : String) :
    (words s).head? =
      if (trimStart s).toList = [] then none
      else some (String.ofList ((trimStart s).toList.takeWhile fun c => !isBlank c)) := by
  have pieces : ∀ cs : List Char, ((cs.splitOnP isBlank).filter (!·.isEmpty)).head? =
      if cs.dropWhile isBlank = [] then none
      else some ((cs.dropWhile isBlank).takeWhile fun c => !isBlank c) := by
    intro cs
    induction cs with
    | nil => rfl
    | cons c cs ih =>
      rw [List.splitOnP_cons_eq_if_modifyHead]
      cases blank : isBlank c with
      | true => simpa [blank] using ih
      | false =>
        have first := head?_splitOnP isBlank cs
        cases split : cs.splitOnP isBlank with
        | nil => exact absurd split (List.splitOnP_ne_nil isBlank cs)
        | cons piece others =>
          rw [split] at first
          obtain rfl := Option.some.inj first
          simp [blank]
  rw [words, List.head?_map, pieces, toList_trimStart]
  split <;> rfl

end Text

/-! ## How lines are recognized -/

namespace Directive

/-- The words that are directives. -/
def named : List String :=
  ["/quit", "/q", "/exit", "quit", "exit", "/help", "/h", "/?", "/json", "/scripts", "/active",
    "/jobs", "/stop", "/vars", "/scope"]

theorem ofWord?_of_notMem {word : String} (other : word ∉ named) (argument : Option String) :
    ofWord? word argument = if startsWithSlash word then some (.unknown word) else none := by
  simp only [named, List.mem_cons, List.not_mem_nil, or_false, not_or] at other
  simp [ofWord?, other]

theorem ofWord?_of_hash {word : String} (hash : word.toList.head? = some '#')
    (argument : Option String) : ofWord? word argument = none := by
  have other : word ∉ named := fun mem =>
    absurd hash ((by decide : ∀ word ∈ named, word.toList.head? ≠ some '#') word mem)
  rw [ofWord?_of_notMem other, startsWithSlash, hash]
  rfl

/-- No directive is a slash alone or begins with two of them. -/
theorem ofWord?_of_slash {word : String}
    (slash : word.toList = ['/'] ∨ ['/', '/'] <+: word.toList) (argument : Option String) :
    ofWord? word argument = some (.unknown word) := by
  have other : word ∉ named := fun mem =>
    absurd slash ((by decide :
      ∀ word ∈ named, ¬ (word.toList = ['/'] ∨ ['/', '/'] <+: word.toList)) word mem)
  have first : startsWithSlash word = true := by
    obtain alone | ⟨more, spelled⟩ := slash
    · rw [startsWithSlash, alone]
      rfl
    · rw [startsWithSlash, ← spelled]
      rfl
  rw [ofWord?_of_notMem other, if_pos first]

end Directive

namespace Line

/-- What counts of a line begins as the line does after its blanks. -/
theorem toList_content_of_trimStart {line : String} {c : Char} {rest : List Char}
    (trimmed : (Text.trimStart line).toList = c :: rest) :
    (content line).toList = c :: rest.filter (· != '\r') := by
  have plain : Text.isBlank c = false := Text.head?_trimStart (by rw [trimmed]; rfl)
  have other : (c != '\r') = true := by
    rw [bne_iff_ne]
    rintro rfl
    exact absurd plain (by decide)
  rw [content, Text.toList_dropReturns, trimmed, List.filter_cons, if_pos other]

/-- The session takes an idle line for a directive exactly if it begins with a slash. -/
theorem ofLine?_of_isIdle {line : String} (idle : isIdle (content line) = true) :
    Directive.ofLine? line =
      if (content line).toList.head? = some '/' then
        some (.unknown ((Text.words line).headD ""))
      else none := by
  have words := Text.head?_words line
  cases trimmed : (Text.trimStart line).toList with
  | nil =>
    rw [trimmed, if_pos rfl, List.head?_eq_none_iff] at words
    have blank : (content line).toList = [] := by
      rw [content, Text.toList_dropReturns, trimmed, List.filter_nil]
    simp [Directive.ofLine?, words, blank]
  | cons c rest =>
    have plain : Text.isBlank c = false := Text.head?_trimStart (by rw [trimmed]; rfl)
    have counts := toList_content_of_trimStart trimmed
    rw [trimmed, if_neg (List.cons_ne_nil _ _), List.takeWhile_cons_of_pos (by simp [plain]),
      List.head?_eq_some_iff] at words
    obtain ⟨others, words⟩ := words
    rw [isIdle, counts] at idle
    rw [Directive.ofLine?, words, counts]
    dsimp only [List.head?_cons, List.headD_cons]
    split at idle
    · rename_i none
      cases none
    · rename_i hash
      obtain ⟨rfl, -⟩ := List.cons.inj hash
      exact Directive.ofWord?_of_hash (by simp) _
    · rename_i more slashes
      obtain ⟨rfl, second⟩ := List.cons.inj slashes
      refine Directive.ofWord?_of_slash ?_ _
      rw [String.toList_ofList]
      -- Between the slashes there may be carriage returns, which end the word.
      cases rest with
      | nil => cases second
      | cons d rest =>
        by_cases isReturn : d = '\r'
        · exact .inl (by simp [isReturn, show Text.isBlank '\r' = true by decide])
        · rw [List.filter_cons, if_pos (bne_iff_ne.mpr isReturn)] at second
          obtain ⟨rfl, -⟩ := List.cons.inj second
          exact .inr (by simp [show Text.isBlank '/' = false by decide])
    · cases idle

end Line

/-! ## What the kernel does with an idle line -/

/-- The kernel begins a request and ends it. -/
theorem Line.runRequest_of_isIdle {line : String} (idle : isIdle (content line) = true)
    (ws : Workspace) : runRequest line ws = .done {} ws.beginRequest.endRequest := by
  obtain ⟨depth, enough⟩ := exists_depthBound_eq_succ line 0
  rw [runRequest, runBare, enough, evaluate, if_pos idle]
  simp [Run.bind]

/-! ## What stays when a line is over -/

namespace Workspace

/-- No text waits to be shown. -/
def Silent (ws : Workspace) : Prop :=
  ∀ m ∈ ws.pending, m.text? = none

theorem silent_of_pending {ws : Workspace} (none : ws.pending = []) : ws.Silent := by
  rw [Silent, none]
  exact List.forall_mem_nil _

/-- What a host does says no text by itself. -/
theorem Silent.handled {ws ws' : Workspace} {said : List Message} (h : ws.Silent)
    (handled : ws.Handled said ws') : ws'.Silent := by
  have textless : ∀ m ∈ said, m.text? = none := by
    cases handled with
    | start ok =>
      rw [startNotice]
      split
      · exact List.forall_mem_nil _
      · simp [Scheduler.announcement, Message.text?]
    | stop target =>
      rw [Scheduler.stop]
      dsimp only
      split
      · exact List.forall_mem_nil _
      · simp [Scheduler.announcement, Message.text?]
    | discard wait =>
      rw [endNotice]
      split
      · simp [Message.text?]
      · exact List.forall_mem_nil _
    | _ => exact List.forall_mem_nil _
  rw [Silent, handled.pending]
  intro m mem
  exact (List.mem_append.mp mem).elim (h m) (textless m)

end Workspace

namespace Kernel

/-- There is no line but this one. -/
def Only (id : Nat) (k : Kernel) : Prop :=
  ∀ line ∈ k.lines, line.id = id

variable {k k' : Kernel} {id : Nat}

theorem Only.same (h : k.Only id) (lines : k'.lines = k.lines) : k'.Only id := by
  rw [Only, lines]
  exact h

theorem Only.removeLine (h : k.Only id) : (k.removeLine id).lines = [] := by
  rw [Kernel.removeLine, List.filter_eq_nil_iff]
  intro line mem
  simp [h line mem]

theorem Only.settleLine (h : k.Only id) (other : Nat) (run : Run Evaluation) :
    (k.settleLine other run).Only id := by
  have settled (state : LineState) (ws : Workspace) : (k.setLine other state ws).Only id := by
    refine Only.same ?_ (moveBack_same _ _).lines
    intro line mem
    obtain ⟨old, listed, rfl⟩ := List.mem_map.mp mem
    split
    · exact h old listed
    · exact h old listed
  cases run with
  | done evaluation ws => exact settled _ ws
  | await wait ws next => exact settled _ ws
  | endless => exact settled _ _

theorem Only.pollLine (h : k.Only id) (other : Nat) : (k.pollLine other).Only id := by
  unfold Kernel.pollLine
  split
  · exact h.settleLine other _
  · split
    · exact h.settleLine other _
    · exact h
  · have fewer : (k.removeLine other).Only id := fun line mem => h line (List.mem_of_mem_filter mem)
    exact fewer.same (callReady_same _).lines
  · exact h

theorem Only.proceed (h : k.Only id) (proceed : k.Proceed k') : k'.Only id := by
  cases proceed with
  | pollLine other => exact h.pollLine other
  | receive => exact h.same k.receive_lines
  | pollJob generation =>
    unfold Kernel.pollJob
    split
    · exact h
    · exact h
  | beginRound => exact h.same k.beginRound_lines
  | passTo time => exact h.same (k.passTo_same time).lines
  | reorder same => exact h.same same.lines

theorem Only.proceeds (h : k.Only id) (proceeds : k.Proceeds k') : k'.Only id := by
  induction proceeds with
  | refl => exact h
  | tail _ step ih => exact ih.proceed step

/-- A line that is given up leaves no line, and says nothing. -/
theorem dropLine_quiet (only : k.Only id) (silent : k.workspace.Silent) :
    (k.dropLine id).lines = [] ∧ (k.dropLine id).workspace.Silent := by
  have discarded (wait : Wait) :
      (k.discard id wait).lines = [] ∧ (k.discard id wait).workspace.Silent := by
    obtain ⟨workspace, -, lines⟩ := callReady_same
      { k.removeLine id with workspace := (wait.abandon k.workspace).endRequest }
    refine ⟨lines.trans only.removeLine, ?_⟩
    rw [discard, workspace]
    exact silent.handled (.discard wait)
  unfold Kernel.dropLine
  split
  · exact discarded _
  · exact discarded _
  · exact ⟨only.removeLine, silent⟩

end Kernel

/-! ## Between two lines -/

namespace Session

/-- No line is under way, and no text waits to be shown. -/
structure Quiet (s : Session) : Prop where
  lines : s.kernel.lines = []
  silent : s.kernel.workspace.Silent

theorem quiet_of_opened {options : CommandLine.Options} {here : CommandLine.Surroundings}
    {s : Session} (opened : CommandLine.openSession options here = .ok s) : s.Quiet := by
  have new := CommandLine.openSession_ok opened
  exact ⟨new.lines, Workspace.silent_of_pending (by rw [Workspace.pending, new.bus])⟩

theorem Quiet.obey {s : Session} (h : s.Quiet) (directive : Directive) :
    (s.obey directive).2.Quiet := by
  cases directive with
  | stop target =>
    obtain ⟨workspace, -, lines⟩ := Kernel.callReady_same
      { s.kernel with workspace := (s.kernel.workspace.stop target).2 }
    refine ⟨lines.trans h.lines, ?_⟩
    show (Kernel.callReady _).workspace.Silent
    rw [workspace]
    exact h.silent.handled (.stop target)
  | scripts =>
    rw [Session.obey]
    split
    · exact h
    · exact h
  | _ => exact ⟨h.lines, h.silent⟩

theorem answerFrom_quiet {id : Nat} (s : Session) (count : Nat) (input : List String)
    (only : s.kernel.Only id) (silent : s.kernel.workspace.Silent) :
    (s.answerFrom count input).2.kernel.Only id ∧
      (s.answerFrom count input).2.kernel.workspace.Silent := by
  induction count generalizing s input with
  | zero => exact ⟨only, silent⟩
  | succ count ih =>
    obtain ⟨workspace, -, lines⟩ : Kernel.Same _ (s.kernel.provideInput (input.headD "")) :=
      Kernel.callReady_same _
    refine ih (s.answer (input.headD "")) input.tail (only.same lines) ?_
    rw [answer, workspace]
    exact silent.handled (.provideInput _)

/-- However a line ends, nothing is left of it to show. -/
theorem quiet_follow {rounds id polls : Nat} {s : Session} {shown : String} {input : List String}
    (only : s.kernel.Only id) (silent : s.kernel.workspace.Silent) :
    (s.follow rounds id polls shown input).session.Quiet := by
  -- Every look takes what was said, and the answers that follow it say no text.
  induction polls generalizing s shown input with
  | zero =>
    obtain ⟨lines, silent⟩ := Kernel.dropLine_quiet only silent
    exact ⟨lines, silent⟩
  | succ polls ih =>
    obtain ⟨k, proceeds, ⟨evaluation, output, -, polled⟩ | ⟨-, output, polled⟩⟩ :=
      s.poll_cases rounds id
    · rw [follow, polled]
      exact ⟨(only.proceeds proceeds).removeLine, Workspace.silent_of_pending rfl⟩
    · rw [follow, polled]
      have only : k.drain.2.Only id := (only.proceeds proceeds).same rfl
      obtain ⟨only, silent⟩ := answerFrom_quiet { s with kernel := k.drain.2 }
        (k.workspace.requests - s.served) input only (Workspace.silent_of_pending rfl)
      exact ih only silent

theorem Quiet.run {s : Session} (h : s.Quiet) (effort : Effort) (line : String)
    (input : List String) : (s.run effort line input).session.Quiet := by
  refine quiet_follow ?_ h.silent
  intro other mem
  have listed : other ∈ s.kernel.lines ++ [_] := mem
  rw [h.lines, List.nil_append, List.mem_singleton] at listed
  rw [listed]
  rfl

/-- What is done with a session: it takes lines, with input for them or without, and it is told how
to show messages. -/
inductive Use (s : Session) : Session → Prop where
  | handle (effort : Effort) (line : String) : Use s (s.handle effort line).2
  | run (effort : Effort) (line : String) (input : List String) :
      Use s (s.run effort line input).session
  | setMode (mode : OutputMode) : Use s { s with mode }

/-- Any number of uses. -/
abbrev Uses : Session → Session → Prop :=
  Relation.ReflTransGen Use

theorem Quiet.use {s s' : Session} (h : s.Quiet) (use : s.Use s') : s'.Quiet := by
  cases use with
  | handle effort line =>
    rw [handle]
    split
    · exact h.obey _
    · exact h.run effort line []
  | run effort line input => exact h.run effort line input
  | setMode mode => exact ⟨h.lines, h.silent⟩

theorem Quiet.uses {s s' : Session} (h : s.Quiet) (uses : Uses s s') : s'.Quiet := by
  induction uses with
  | refl => exact h
  | tail _ use ih => exact ih.use use

/-! ## Idle lines -/

/-- After the first turn the kernel is done with the line. -/
theorem poll_submit {k : Kernel} (none : k.lines = []) {line : String}
    (idle : Line.isIdle (Line.content line) = true) :
    let polled := Goal.poll (k.submit line).2 (.line (k.submit line).1)
    polled.workspace = k.workspace.beginRequest.endRequest ∧
      polled.line? (k.submit line).1 = some (.finished {}) := by
  have lines : (k.submit line).2.lines = [⟨k.nextLine, .unstarted line⟩] := by
    rw [Kernel.submit, none, List.nil_append]
  have found : (k.submit line).2.line? k.nextLine = some (.unstarted line) := by
    simp [Kernel.line?, lines]
  have turn : (k.submit line).2.pollLine k.nextLine =
      (k.submit line).2.setLine k.nextLine (.finished {})
        k.workspace.beginRequest.endRequest := by
    rw [Kernel.pollLine, found]
    exact congrArg ((k.submit line).2.settleLine k.nextLine) (Line.runRequest_of_isIdle idle _)
  obtain ⟨workspace, -, called⟩ :=
    Kernel.callReady_same ((k.submit line).2.pollLine k.nextLine)
  constructor
  · refine workspace.trans ?_
    rw [turn]
    exact (Kernel.moveBack_same _ _).workspace
  · have after : ((k.submit line).2.setLine k.nextLine (.finished {})
        k.workspace.beginRequest.endRequest).line? k.nextLine = _ :=
      Kernel.line?_setLine k.nextLine
    rw [found, Option.map_some, if_pos rfl, ← turn] at after
    refine Eq.trans ?_ after
    rw [Kernel.line?, Kernel.line?, ← called]
    rfl

/-- The first look finds the line over. -/
theorem poll_submit_of_isIdle {s : Session} (none : s.kernel.lines = []) {line : String}
    (idle : Line.isIdle (Line.content line) = true) (rounds : Nat) :
    ∃ k : Kernel, k.workspace = s.kernel.workspace.beginRequest.endRequest ∧
      (s.submit line).2.poll (rounds + 1) (s.submit line).1 =
        (.finished {}, String.join (k.workspace.pending.filterMap (Message.render? s.mode)),
          { s with kernel := k.drain.2, served := k.workspace.requests }) := by
  obtain ⟨workspace, found⟩ := poll_submit none idle
  let polled := Goal.poll (s.kernel.submit line).2 (.line (s.kernel.submit line).1)
  have reached : Goal.isReached polled (.line (s.kernel.submit line).1) = true := by
    rw [Goal.isReached, Goal.isFinished, found]
  have awaited : (s.kernel.submit line).2.await (.line (s.kernel.submit line).1)
      ((s.kernel.submit line).2.workspace.now + interval) (rounds + 1) = (.reached, polled) := by
    rw [Kernel.await]
    exact if_pos reached
  have taken : polled.takeLine (s.kernel.submit line).1 =
      (some {}, polled.removeLine (s.kernel.submit line).1) := by
    unfold Kernel.takeLine
    rw [found]
  refine ⟨polled.removeLine (s.kernel.submit line).1, workspace, ?_⟩
  unfold poll submit
  dsimp only
  rw [awaited]
  dsimp only
  rw [taken]
  rfl

/-- A request in which nothing is said leaves no text. -/
theorem silent_request {ws : Workspace} (silent : ws.Silent) :
    ws.beginRequest.endRequest.Silent := by
  have begun : ws.beginRequest.Silent := by
    rw [Workspace.Silent, Workspace.beginRequest, Workspace.pending_push]
    intro m mem
    rcases List.mem_append.mp mem with old | new
    · exact silent m old
    · rw [List.mem_singleton.mp new]
      rfl
  exact begun.handled (.discard (.time 0))

theorem globals_request (ws : Workspace) :
    ws.beginRequest.endRequest.globals = ws.globals := by
  rw [Workspace.endRequest]
  split <;> rfl

/-- An idle line that is no directive shows nothing but what was waiting. -/
theorem handle_of_isIdle {s : Session} (quiet : s.Quiet) (plain : s.mode = .plain)
    {effort : Effort} (polls : effort.polls ≠ 0) (rounds : effort.rounds ≠ 0) {line : String}
    (idle : Line.isIdle (Line.content line) = true)
    (undirected : Directive.ofLine? line = none) :
    (s.handle effort line).1 = none ∧ (s.handle effort line).2.isOver = s.isOver ∧
      (s.handle effort line).2.kernel.workspace.globals = s.kernel.workspace.globals := by
  obtain ⟨looks, polls⟩ := Nat.exists_eq_succ_of_ne_zero polls
  obtain ⟨turns, rounds⟩ := Nat.exists_eq_succ_of_ne_zero rounds
  obtain ⟨k, workspace, polled⟩ := poll_submit_of_isIdle quiet.lines idle turns
  have nothing : k.workspace.pending.filterMap (Message.render? s.mode) = [] := by
    rw [List.filterMap_eq_nil_iff, plain, workspace]
    exact silent_request quiet.silent
  have ran : s.run effort line [] =
      ⟨{}, "", [], { s with kernel := k.drain.2, served := k.workspace.requests }⟩ := by
    rw [run, polls, rounds, follow, polled, nothing]
    rfl
  have handled : s.handle effort line =
      (none, { s with kernel := k.drain.2, served := k.workspace.requests }) := by
    rw [handle, undirected, ran]
    rfl
  rw [handled]
  refine ⟨rfl, rfl, ?_⟩
  show k.workspace.globals = _
  rw [workspace, globals_request]

/-- A line that is blank or a comment to the kernel changes no variable there. A session that has
just been opened, or has taken any number of lines since, lets it pass as well: it shows nothing in
plain mode, does not end, and keeps all variables. But a comment that begins with slashes does not
get to the kernel: the session refuses its first word. -/
theorem comments_are_silent_but_for_slashes {effort : Effort} (polls : effort.polls ≠ 0)
    (rounds : effort.rounds ≠ 0) {start s : Session} (quiet : start.Quiet) (uses : Uses start s)
    (plain : s.mode = .plain) {line : String}
    (idle : Line.isIdle (Line.content line) = true) :
    (∀ ws, Line.runRequest line ws = .done {} ws.beginRequest.endRequest ∧
      ws.beginRequest.endRequest.globals = ws.globals) ∧
    (s.handle effort line).2.isOver = s.isOver ∧
    (s.handle effort line).2.kernel.workspace.globals = s.kernel.workspace.globals ∧
    (s.handle effort line).1 =
      if (Line.content line).toList.head? = some '/' then
        some ("Unknown command: " ++ (Text.words line).headD "" ++
          "\nType /help for available commands.")
      else none := by
  refine ⟨fun ws => ⟨Line.runRequest_of_isIdle idle ws, globals_request ws⟩, ?_⟩
  have directive := Line.ofLine?_of_isIdle idle
  split_ifs at directive ⊢ with slash
  · have refused : s.handle effort line = s.obey (.unknown ((Text.words line).headD "")) := by
      rw [handle, directive]
    rw [refused]
    exact ⟨rfl, rfl, rfl⟩
  · obtain ⟨shown, stays, globals⟩ :=
      handle_of_isIdle (quiet.uses uses) plain polls rounds idle directive
    exact ⟨stays, globals, shown⟩

/-- A session with no scripts. -/
def bare : Session where
  kernel := .withParts .isolated .empty .recording

theorem hash_comment_is_silent :
    bare.Quiet ∧ Line.isIdle (Line.content " # /quit") = true ∧
      (bare.handle ⟨1, 1⟩ " # /quit").2.isOver = false ∧
      (bare.handle ⟨1, 1⟩ " # /quit").1 = none := by
  have quiet : bare.Quiet := ⟨rfl, Workspace.silent_of_pending rfl⟩
  have idle : Line.isIdle (Line.content " # /quit") = true := by decide
  obtain ⟨-, stays, -, shown⟩ := comments_are_silent_but_for_slashes
    (show (Effort.mk 1 1).polls ≠ 0 by decide) (by decide) quiet .refl rfl idle
  exact ⟨quiet, idle, stays, shown.trans (if_neg (by decide))⟩

/-- The kernel lets the line pass, and the session refuses it. -/
theorem slash_comment_is_refused :
    bare.mode = .plain ∧ bare.kernel.isIdle = true ∧
      Line.isIdle (Line.content "// note") = true ∧
      ∀ effort, (bare.handle effort "// note").1 =
        some "Unknown command: //\nType /help for available commands." := by
  have directive : Directive.ofLine? "// note" = some (.unknown "//") := by decide
  refine ⟨rfl, rfl, by decide, fun effort => ?_⟩
  rw [handle, directive]
  rfl

end Session

end LineScript
