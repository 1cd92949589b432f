import LineScript.Proofs.Input.Desk

/-!
# Who is told that input is accepted

Input is off while a request of the host is in flight, but for reads. Two rules say when it is
turned on or off, and neither looks at the other: a request turns it off when it begins, and on when
it ends if no other is in flight; a read turns it on when it starts, and when it ends it turns it on
or off by whether a request is in flight. So input is never left off (`input_is_given_back`), but a
read that is open does not keep it on: `input_while_reading` says when it is on, and
`reader_without_input` is a line that waits for input with input off.
-/

namespace LineScript.Desk

open Note (begun settled lastToggle? lastTurn?)

variable {k : Kernel} {d : Desk}

/-- However requests of the host begin, settle and are given up, and however reads start, are
answered, end without a line or are let go: the counter is the number of the requests in flight; a
request that settles or is given up was in flight, and it gives input back if and only if no other
was; and whenever none is in flight, what was said last about input is not that it is off. All that
a host can do, and all that happens by itself, is among these steps. -/
theorem input_is_given_back (blank : k.Blank) (steps : (of k).Steps d) :
    d.workspace.busy = d.kernel.inFlight ∧
    begun d.notes = settled d.notes + d.kernel.inFlight ∧
    d.drained ++ d.workspace.pending = d.notes.flatMap (·.said) ∧
    (∀ before note after, d.notes = before ++ note :: after → note.signal? = some .settles →
      settled before < begun before ∧
        note.said = if begun before = settled before + 1 then [.input true] else []) ∧
    (∀ before, before <+: d.notes → begun before = settled before →
      lastToggle? before ≠ some false) ∧
    (d.kernel.inFlight = 0 → lastToggle? d.notes ≠ some false) ∧
    ∀ k', d.kernel.Act k' → k'.Survives → ∃ d', d.Step d' ∧ d'.kernel = k' := by
  have sound := steps.sound (of_sound blank)
  refine ⟨sound.flight, ?_, sound.told, sound.fair.settling, sound.fair.resting, ?_, ?_⟩
  · rw [← sound.flight]
    exact sound.balanced.busy
  · intro none
    exact sound.balanced.idle (sound.flight.trans none)
  · exact fun k' act survives => sound.exists_step act survives

/-! ### A kernel on which lines read -/

def lobby : Kernel :=
  .withParts .isolated (.memory ⟨[("a", "readline")]⟩) .recording (.ofCommands [Builtin.readLine])

theorem lobby_blank : lobby.Blank :=
  Kernel.withParts_blank ..

/-- A line waits for input. -/
def lobbyWithLine : Kernel :=
  (lobby.submit "readline").2.pollLine 0

theorem lobby_acts_line : Acts lobby lobbyWithLine := by
  have submitted : Acts lobby (lobby.submit "readline").2 :=
    .single ⟨.submit "readline" nofun, by decide +kernel⟩
  exact submitted.tail ⟨.proceed (.pollLine 0), by decide +kernel⟩

/-- A line that waits for input is given up: it was the only one, and input is given back. -/
theorem lobby_gives_input_back : ∃ d, (of lobby).Steps d ∧ d.kernel = lobbyWithLine.dropLine 0 ∧
    d.workspace.busy = 0 ∧ begun d.notes = settled d.notes ∧ lastToggle? d.notes ≠ some false := by
  have dropped : Acts lobbyWithLine (lobbyWithLine.dropLine 0) :=
    .single ⟨.dropLine 0, by decide +kernel⟩
  obtain ⟨d, steps, -, here⟩ := exists_steps lobby_blank (lobby_acts_line.trans dropped)
  have none : d.kernel.inFlight = 0 := by
    rw [here]
    decide +kernel
  obtain ⟨busy, counts, -, -, -, given, -⟩ := input_is_given_back lobby_blank steps
  rw [none] at busy counts
  exact ⟨d, steps, here, busy, counts, given none⟩

/-! ## Reads -/

theorem exists_ticket {party : Party} (reads : k.isReader party = true) :
    ∃ ticket, k.wait? party = some (.input ticket) := by
  unfold Kernel.isReader at reads
  cases waits : k.wait? party with
  | none =>
    rw [waits] at reads
    cases reads
  | some wait =>
    rw [waits] at reads
    cases wait with
    | input ticket => exact ⟨ticket, rfl⟩
    | _ => cases reads

/-- Where somebody waits for input, something was said about it. -/
theorem Sound.spoken_of_isReader (h : d.Sound) {party : Party}
    (reads : d.kernel.isReader party = true) : lastToggle? d.notes ≠ none := by
  obtain ⟨ticket, waits⟩ := exists_ticket reads
  cases party with
  | line id =>
    obtain ⟨state, found, wait⟩ := Option.bind_eq_some_iff.mp waits
    obtain ⟨line, mem, -, rfl⟩ := Kernel.exists_line_of_line? found
    exact (h.lines line mem).2 ticket wait
  | job generation =>
    obtain ⟨job, found, wait⟩ := Option.bind_eq_some_iff.mp waits
    exact (h.jobs job (List.mem_of_find?_eq_some found)).2 ticket wait

/-- While somebody waits for input, input is on if no request of the host is in flight, or if
nothing has happened since the last read has started: no request has begun, and no other read has
been answered or has ended. Otherwise it is off. -/
theorem input_while_reading (blank : k.Blank) (steps : (of k).Steps d) {party : Party}
    (reads : d.kernel.isReader party = true) :
    lastToggle? d.notes = some true ↔
      d.kernel.inFlight = 0 ∨ lastTurn? d.notes = some true := by
  have sound := steps.sound (of_sound blank)
  have said := sound.spoken_of_isReader reads
  rw [← sound.flight]
  by_cases idle : d.workspace.busy = 0
  · have given := sound.balanced.idle idle
    cases last : lastToggle? d.notes with
    | none => exact absurd last said
    | some enabled =>
      cases enabled with
      | true => simp [idle]
      | false => exact absurd last given
  · rw [sound.balanced.engaged (Nat.pos_of_ne_zero idle)]
    simp [idle]

/-- The script `a` has started. -/
def lobbyStarted : Kernel :=
  match lobby.start ["a"] with
  | .ok (_, k) => k
  | .error _ => lobby

/-- The script waits for input. -/
def lobbyWithScript : Kernel :=
  (lobbyStarted.receive.pollJob 1).beginRound.pollJob 1

theorem lobby_acts_script : Acts lobby lobbyWithScript := by
  have started : Acts lobby lobbyStarted := by
    have survives : lobbyStarted.Survives := by decide +kernel
    unfold lobbyStarted at survives ⊢
    cases ok : lobby.start ["a"] with
    | ok result =>
      rw [ok] at survives
      exact .single ⟨.start ok, survives⟩
    | error e => exact .refl
  have received := started.tail ⟨.proceed .receive, by decide +kernel⟩
  have rested := received.tail ⟨.proceed (.pollJob 1), by decide +kernel⟩
  have due := rested.tail ⟨.proceed .beginRound, by decide +kernel⟩
  exact due.tail ⟨.proceed (.pollJob 1), by decide +kernel⟩

/-- Without a request in flight, a script that waits for input has it on. -/
theorem script_waits_with_input : ∃ d, (of lobby).Steps d ∧ d.kernel = lobbyWithScript ∧
    d.kernel.isReader (.job 1) = true ∧ lastToggle? d.notes = some true := by
  obtain ⟨d, steps, -, here⟩ := exists_steps lobby_blank lobby_acts_script
  have facts : lobbyWithScript.isReader (.job 1) = true ∧ lobbyWithScript.inFlight = 0 := by
    decide +kernel
  rw [← here] at facts
  have accepted := (input_while_reading lobby_blank steps facts.1).mpr (.inl facts.2)
  exact ⟨d, steps, here, facts.1, accepted⟩

/-- A line waits for input behind the script, and the script has got a line. -/
def lobbyServed : Kernel :=
  (((lobbyWithScript.submit "readline").2.pollLine 0).provideInput "x").pollJob 1

/-- The script has got its line while the line of the host still waits for one, and input is off. -/
theorem reader_without_input : ∃ d, (of lobby).Steps d ∧ d.kernel = lobbyServed ∧
    d.kernel.isReader (.line 0) = true ∧ lastToggle? d.notes = some false := by
  have submitted := lobby_acts_script.tail ⟨.submit "readline" nofun, by decide +kernel⟩
  have waiting := submitted.tail ⟨.proceed (.pollLine 0), by decide +kernel⟩
  have provided := waiting.tail ⟨.provideInput "x", by decide +kernel⟩
  have served : Acts lobby lobbyServed := provided.tail ⟨.proceed (.pollJob 1), by decide +kernel⟩
  obtain ⟨d, steps, sound, here⟩ := exists_steps lobby_blank served
  have facts : lobbyServed.isReader (.line 0) = true ∧
      (lobbyServed.workspace.pending.filterMap Message.toggle?).getLast? = some false := by
    decide +kernel
  rw [← here] at facts
  exact ⟨d, steps, here, facts.1, sound.lastToggle?_of_pending facts.2⟩

end LineScript.Desk
