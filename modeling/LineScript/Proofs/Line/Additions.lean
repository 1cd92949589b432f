import LineScript.Proofs.Line.Renewal

/-!
# What a line adds to a global list

A line reads a list and writes it back in one piece, for it waits at no point between the two. So
what becomes of a global list with a line shows in the journal of the line: the list is what it was,
followed by what was added to it, unless the line has deleted the list or created it anew, or its
owner has a variable that hides it (`Line.Tallied`). After a wait a line sets variables to texts at
most, and so all global lists are left as they are (`Scope.KeepsLists`).
-/

namespace LineScript

/-! ## Entries -/

namespace Entry

/-- The item that was added to a list of this name. -/
def added? (list : String) (entry : Entry) : Option String :=
  match entry.deed with
  | .asked (.update target (.list items)) (.ok _) => if target = list then items.getLast? else none
  | _ => none

/-- A global list was created, in place of whatever list was there. -/
def Recreates (owner : Option Instance) (list : String) (entry : Entry) : Prop :=
  match entry.deed with
  | .asked (.assign target (.list _)) (.ok _) =>
    target = list ∧ owner = none ∧ Line.command? entry.line = some "listcreate"
  | _ => False

/-- To add something is to change something. -/
theorem added?_of_isGrant {entry : Entry} (list : String) (refused : entry.isGrant = false) :
    entry.added? list = none := by
  unfold added?
  split
  · rename_i deed
    simp [isGrant, deed, Request.isChange, Request.verdict, Except.mapError, Except.isOk,
      Except.toBool] at refused
  · rfl

theorem isGrant_of_recreates {entry : Entry} {owner : Option Instance} {list : String}
    (recreates : entry.Recreates owner list) : entry.isGrant = true := by
  unfold Recreates at recreates
  split at recreates
  · rename_i deed
    simp [isGrant, deed, Request.isChange, Request.verdict, Except.mapError, Except.isOk,
      Except.toBool]
  · cases recreates

theorem added?_of_setsText {entry : Entry} (list : String) (text : entry.setsText = true) :
    entry.added? list = none := by
  unfold added?
  split
  · rename_i deed
    simp [setsText, deed] at text
  · rfl

end Entry

namespace Line

/-- What lines with these entries have added to lists of this name, in order. -/
def additions (list : String) (log : List Entry) : List String :=
  log.filterMap (Entry.added? list)

/-- A line of this owner with these entries has deleted a global list or created it anew. -/
def Resets (owner : Option Instance) (log : List Entry) (list : String) : Prop :=
  ∃ entry ∈ log, entry.Deletes owner .globals list ∨ entry.Recreates owner list

variable {list : String} {log log' : List Entry} {owner : Option Instance}

theorem additions_append (list : String) (log log' : List Entry) :
    additions list (log ++ log') = additions list log ++ additions list log' :=
  List.filterMap_append

theorem additions_of_clean (none : ∀ entry ∈ log, entry.isGrant = false) :
    additions list log = [] :=
  List.filterMap_eq_nil_iff.mpr fun entry mem => entry.added?_of_isGrant list (none entry mem)

/-- Only what was granted was added. -/
theorem additions_filter (list : String) (log : List Entry) :
    additions list (log.filter (·.isGrant)) = additions list log := by
  rw [additions, additions, List.filterMap_filter]
  congr 1
  funext entry
  cases grant : entry.isGrant with
  | true => rfl
  | false => exact (entry.added?_of_isGrant list grant).symm

/-- Nor does a line delete or create anything with what it was refused. -/
theorem Resets.filter (resets : Resets owner log list) :
    Resets owner (log.filter (·.isGrant)) list := by
  obtain ⟨entry, mem, resets⟩ := resets
  refine ⟨entry, List.mem_filter.mpr ⟨mem, ?_⟩, resets⟩
  rcases resets with deletes | recreates
  · cases grant : entry.isGrant with
    | true => rfl
    | false =>
      have removal := deletes.isRemoval
      rw [Entry.isRemoval_of_isGrant grant] at removal
      cases removal
  · exact Entry.isGrant_of_recreates recreates

theorem not_resets_update (owner : Option Instance) (list target line : String) (value : Value) :
    ¬ Resets owner [⟨line, .asked (.update target value) (.ok ())⟩] list := by
  simp [Resets, Entry.Deletes, Entry.Recreates]

theorem additions_update_of_ne {target : String} (other : target ≠ list) (line : String)
    (value : Value) (reply : Except AssignError Unit) :
    additions list [⟨line, .asked (.update target value) reply⟩] = [] := by
  cases value <;> cases reply <;> simp [additions, Entry.added?, other]

theorem additions_update (list line item : String) (items : List String) :
    additions list [⟨line, .asked (.update list (.list (items ++ [item]))) (.ok ())⟩] = [item] := by
  simp [additions, Entry.added?]

theorem additions_of_texts (texts : Textual log) : additions list log = [] := by
  refine List.filterMap_eq_nil_iff.mpr fun entry mem => ?_
  cases grant : entry.isGrant with
  | false => exact entry.added?_of_isGrant list grant
  | true => exact entry.added?_of_setsText list (texts entry mem grant)

end Line

/-! ## Scopes -/

namespace Scope

variable {s s' s'' : Scope} {name : String} {value : Value}

/-- Every list is what it was. -/
def KeepsLists (s s' : Scope) : Prop :=
  ∀ list items, s.get? list = some (.list items) → s'.get? list = some (.list items)

theorem KeepsLists.refl (s : Scope) : s.KeepsLists s :=
  fun _ _ found => found

theorem KeepsLists.of_eq (same : s' = s) : s.KeepsLists s' := by
  rw [same]
  exact .refl s

theorem KeepsLists.trans (first : s.KeepsLists s') (second : s'.KeepsLists s'') :
    s.KeepsLists s'' :=
  fun list items found => second list items (first list items found)

theorem get?_of_assign (ok : s.assign name value = .ok s') (key : String) :
    s'.get? key = if key = name then some value else s.get? key := by
  obtain ⟨-, rfl, -⟩ := assign_ok ok
  exact Bindings.get?_insert _ _ _ _

/-- Only a list takes the place of a list. -/
theorem list_of_assign {items : List String} (ok : s.assign name value = .ok s')
    (found : s.get? name = some (.list items)) : ∃ items', value = .list items' := by
  obtain ⟨-, -, same⟩ := assign_ok ok
  have kind := same .list (by simp [kind?, found, Value.kind])
  cases value with
  | list items' => exact ⟨items', rfl⟩
  | _ => cases kind

theorem KeepsLists.of_assign_text {text : String} (ok : s.assign name (.text text) = .ok s') :
    s.KeepsLists s' := by
  intro list items found
  rw [get?_of_assign ok]
  split
  · rename_i mine
    rw [mine] at found
    obtain ⟨items', other⟩ := list_of_assign ok found
    cases other
  · exact found

end Scope

/-! ## Requests -/

namespace Context

variable (ctx : Context) (ws : Workspace) (target : String) (value : Value)

/-- Only a bare line sets a global variable when it sets one of its own. -/
theorem assign_globals :
    (ctx.assign ws target value).2.2.globals = ws.globals ∨
      ctx.owner = none ∧
        ws.globals.assign target value = .ok (ctx.assign ws target value).2.2.globals := by
  unfold assign
  cases owner : ctx.owner with
  | some i => cases assigned : i.locals.assign target value <;> simp [assigned]
  | none => cases assigned : ws.globals.assign target value <;> simp

variable {ctx ws target value} in
theorem assignGlobal_granted (granted : (ctx.assignGlobal ws target value).1 = .ok ()) :
    ws.globals.assign target value = .ok (ctx.assignGlobal ws target value).2.2.globals := by
  unfold assignGlobal at granted ⊢
  cases assigned : ws.globals.assign target value with
  | ok globals => rfl
  | error e =>
    rw [assigned] at granted
    cases granted

theorem assign_text_keepsLists (text : String) :
    ws.globals.KeepsLists (ctx.assign ws target (.text text)).2.2.globals := by
  rcases ctx.assign_globals ws target (.text text) with same | ⟨-, assigned⟩
  · exact .of_eq same
  · exact .of_assign_text assigned

end Context

namespace Line

/-- What becomes of the global lists with a line of this owner that has made these entries. -/
def Tallied (owner : Option Instance) (ws : Workspace) (log : List Entry) (last : Workspace) :
    Prop :=
  ∀ list items, ws.globals.get? list = some (.list items) →
    (∀ i, owner = some i → i.locals.contains list = false) → ¬ Resets owner log list →
    last.globals.get? list = some (.list (items ++ additions list log))

variable {log log' : List Entry} {owner : Option Instance} {ws start last : Workspace} {call : Call}
  {e : Ended} {ctx : Context}

theorem tallied_of_keepsLists (keeps : ws.globals.KeepsLists last.globals)
    (nothing : ∀ list, additions list log = []) : Tallied owner ws log last := by
  intro list items found _ _
  rw [nothing, List.append_nil]
  exact keeps list items found

theorem Tallied.after_clean (h : Tallied owner ws log' last)
    (none : ∀ entry ∈ log, entry.isGrant = false) : Tallied owner ws (log ++ log') last := by
  intro list items found shown keeps
  rw [additions_append, additions_of_clean none, List.nil_append]
  refine h list items found shown ?_
  rintro ⟨entry, mem, resets⟩
  exact keeps ⟨entry, List.mem_append_right _ mem, resets⟩

theorem eq_ok_of_mapError {ε : Type} {f : ε → Fault} {reply : Except ε Unit}
    (granted : reply.mapError f = .ok ()) : reply = .ok () := by
  cases reply with
  | ok _ => rfl
  | error e => cases granted

/-- A list that is set anew by a bare line is created. -/
theorem assign_tallied {target line name : String} {value : Value} {reply : Except AssignError Unit}
    (command : command? line = some name) (suits : Request.Suits name (.assign target value))
    (granted : Request.verdict (.assign target value) reply = .ok ()) :
    Tallied ctx.owner ws [⟨line, .asked (.assign target value) reply⟩]
      (ctx.assign ws target value).2.2 := by
  intro list items found _ keeps
  have nothing : additions list [⟨line, .asked (.assign target value) reply⟩] = [] := rfl
  have ok := eq_ok_of_mapError granted
  subst ok
  rw [nothing, List.append_nil]
  rcases ctx.assign_globals ws target value with same | ⟨bare, assigned⟩
  · rw [same, found]
  · rw [Scope.get?_of_assign assigned]
    split
    · rename_i mine
      rw [mine] at found
      obtain ⟨items', rfl⟩ := Scope.list_of_assign assigned found
      rw [show name = "listcreate" from suits] at command
      exact absurd ⟨_, List.mem_singleton_self _, .inr ⟨mine.symm, bare, command⟩⟩ keeps
    · exact found

/-- A list that is set where it is seen has become what it was, with an item added. -/
theorem update_tallied {target line : String} {value : Value}
    (granted : Request.verdict (.update target value) (ctx.update ws target value).1 = .ok ())
    (renews : Request.Renews (Scope.visible? ctx.locals ws.globals) (.update target value)) :
    Tallied ctx.owner ws
      [⟨line, .asked (.update target value) (ctx.update ws target value).1⟩]
      (ctx.update ws target value).2.2 := by
  intro list items found shown _
  obtain ⟨old, seen, more⟩ := renews
  rcases Context.update_of_seen seen with ⟨i, owner, mine, own⟩ | ⟨-, here, global⟩
  · -- The list is another one, for no variable of the owner has its name.
    have other : target ≠ list := by
      rintro rfl
      have hidden := shown i owner
      rw [Scope.contains_eq, mine] at hidden
      cases hidden
    rw [additions_update_of_ne other, List.append_nil, own]
    rcases ctx.assign_globals ws target value with same | ⟨bare, -⟩
    · rw [same, found]
    · rw [owner] at bare
      cases bare
  · rw [global] at granted ⊢
    have reply := eq_ok_of_mapError granted
    rw [reply, Scope.get?_of_assign (Context.assignGlobal_granted reply)]
    by_cases mine : list = target
    · subst mine
      rw [found] at here
      cases here
      cases more with
      | list _ item => rw [if_pos rfl, additions_update]
    · rw [if_neg mine, additions_update_of_ne (Ne.symm mine), List.append_nil, found]

/-- What a granted change does to the global lists. -/
theorem answer_tallied {r : Request} {line name : String} (change : r.isChange = true)
    (command : command? line = some name) (suits : r.Suits name)
    (granted : r.verdict (ctx.answer ws r).1 = .ok ())
    (renews : r.Renews (Scope.visible? ctx.locals ws.globals)) :
    Tallied ctx.owner ws [⟨line, .asked r (ctx.answer ws r).1⟩] (ctx.answer ws r).2.2 := by
  cases r with
  | assign target value => exact assign_tallied command suits granted
  | update target value => exact update_tallied granted renews
  | assignGlobal target value =>
    have reply := eq_ok_of_mapError granted
    refine tallied_of_keepsLists ?_ fun _ => rfl
    cases value with
    | text text => exact .of_assign_text (Context.assignGlobal_granted reply)
    | _ => cases suits
  | remove target =>
    rw [show name = "deletevar" from suits] at command
    intro list items found _ keeps
    show Scope.get? (ctx.remove ws target).2.globals list = some (.list (items ++ []))
    rw [List.append_nil]
    unfold Context.remove
    cases bare : ctx.owner with
    | some i => exact found
    | none =>
      rw [bare] at keeps
      have other : list ≠ target := by
        rintro rfl
        exact keeps ⟨_, List.mem_singleton_self _, .inl ⟨rfl, rfl, command⟩⟩
      exact (Bindings.get?_erase _ _ _).trans (by rw [if_neg other]; exact found)
  | removeGlobal target =>
    rw [show name = "deleteglob" from suits] at command
    intro list items found _ keeps
    have other : list ≠ target := by
      rintro rfl
      exact keeps ⟨_, List.mem_singleton_self _, .inl ⟨rfl, rfl, command⟩⟩
    show Scope.get? (ws.globals.erase target) list = some (.list (items ++ []))
    rw [List.append_nil]
    exact (Bindings.get?_erase _ _ _).trans (by rw [if_neg other]; exact found)
  | act act => exact tallied_of_keepsLists (.refl _) fun _ => rfl
  | setTypingSpeed speed =>
    refine tallied_of_keepsLists (.of_eq ?_) fun _ => rfl
    simp only [Context.answer, Context.setSettings]
    cases ctx.owner <;> rfl
  | _ => cases change

/-! ## Lines -/

theorem Close.tallied (close : Close call start e last log) :
    Tallied call.owner start log last := by
  cases close with
  | spared _ none => exact tallied_of_keepsLists (.refl _) fun _ => additions_of_clean none
  | @changed ctx entropy r log line name owner change command suits granted _ none _ _ renews =>
    have renews' : r.Renews (Scope.visible? ctx.locals (start.stir entropy).globals) := by
      rw [Context.locals, owner]
      exact renews
    have tallied := answer_tallied change command suits granted renews'
    rw [owner] at tallied
    exact Tallied.after_clean tallied none
  | @paired ctx ctx' entropy target target' text text' _ _ _ _ _ _ _ _ texts =>
    refine tallied_of_keepsLists ?_ fun _ => additions_of_texts texts
    have first := ctx.assign_text_keepsLists (start.stir entropy) target text
    exact first.trans (ctx'.assign_text_keepsLists _ target' text')

/-- Texts do not take the place of lists. -/
theorem Close.keepsLists (close : Close call start e last log) (texts : Textual log) :
    start.globals.KeepsLists last.globals := by
  cases close with
  | spared _ _ => exact .refl _
  | @changed ctx entropy r log line _ _ change _ _ granted _ _ _ _ _ =>
    have grant : Entry.isGrant ⟨line, .asked r (ctx.answer (start.stir entropy) r).1⟩ = true := by
      simp [Entry.isGrant, change, granted, Except.isOk, Except.toBool]
    have text := texts _ (List.mem_append_right _ (List.mem_singleton_self _)) grant
    unfold Entry.setsText at text
    split at text
    · rename_i target content _ deed
      cases deed
      exact ctx.assign_text_keepsLists (start.stir entropy) target content
    · cases text
  | @paired ctx ctx' entropy target target' text text' _ _ _ _ _ _ _ _ _ =>
    have first := ctx.assign_text_keepsLists (start.stir entropy) target text
    exact first.trans (ctx'.assign_text_keepsLists _ target' text')

/-- After a wait all global lists are left as they are. -/
theorem Resumes.keepsLists {wait : Wait} {later : Workspace}
    (resumes : Resumes call wait later e last log) :
    later.globals.KeepsLists last.globals := by
  have keeps := resumes.close.keepsLists resumes.texts
  rwa [globals_resume] at keeps

end Line

/-! ## Runs -/

/-- What becomes of the global lists with a run that has made these entries up to its wait. -/
structure Run.Tallies {α : Type} (owner : Option Instance) (ws : Workspace) (log : List Entry)
    (run : Run α) : Prop where
  settles : run.Settles (fun _ last => Line.Tallied owner ws log last)
    (fun later _ last => later.globals.KeepsLists last.globals) ws
  unfinished : (∀ value last, run ≠ .done value last) → ∀ list, Line.additions list log = []

namespace Run.Tallies

variable {α β : Type} {owner : Option Instance} {ws start : Workspace} {log : List Entry}
  {run : Run α}

/-- Something that leaves the variables alone is done with the end of the run. -/
theorem bind (h : run.Tallies owner ws log) {f : α → Workspace → β}
    {g : α → Workspace → Workspace} (same : ∀ value last, (g value last).globals = last.globals) :
    (run.bind fun value last => .done (f value last) (g value last)).Tallies owner ws log where
  settles := by
    refine h.settles.bind ?_ ?_
    · intro value last tallied list items found shown keeps
      rw [same]
      exact tallied list items found shown keeps
    · intro later value last keeps
      rw [same]
      exact keeps
  unfinished := by
    intro pending
    apply h.unfinished
    rintro value last rfl
    exact pending _ _ rfl

/-- Only the global variables count in the workspace where it begins. -/
theorem of_globals_eq (h : run.Tallies owner start log) (same : start.globals = ws.globals) :
    run.Tallies owner ws log where
  settles := by
    have settles := h.settles.of_globals_eq same
    unfold Line.Tallied at settles ⊢
    rwa [same] at settles
  unfinished := h.unfinished

end Run.Tallies

namespace Line

theorem Account.tallies {call : Call} {ws : Workspace} {run : Run Ended} {book : Book Ended}
    (account : Account call ws run book) : run.Tallies call.owner ws (book []).entries := by
  have broken : BreaksOff book → ∀ list, additions list (book []).entries = [] := by
    rintro ⟨log, here, none⟩ list
    rw [here]
    exact additions_of_clean none
  cases account with
  | endless breaks => exact ⟨.endless, fun _ => broken breaks⟩
  | closes booked close =>
    rw [booked.run_eq, booked.book_eq]
    exact ⟨.done close.tallied, fun pending => absurd rfl (pending _ _)⟩
  | passes halts booked resumes =>
    rw [booked.run_eq, booked.book_eq]
    refine ⟨.done ?_, fun pending => absurd rfl (pending _ _)⟩
    have keeps := resumes.keepsLists
    rw [halts.globals] at keeps
    exact tallied_of_keepsLists keeps fun _ => additions_of_texts resumes.texts
  | waits halts rest breaks =>
    refine ⟨.await halts.globals fun later => ?_, fun _ => broken breaks⟩
    obtain ⟨e, last, log, booked, resumes⟩ := rest later
    exact ⟨e, last, booked.run_eq, resumes.keepsLists⟩

/-- What a line does to the global lists, and what the rest of it does after a wait. -/
theorem evaluate_tallies (depth : Nat) (line : String) (owner : Option Instance) {ws : Workspace}
    (standard : ws.Standard) :
    (evaluate depth {} line owner [] ws).Tallies owner ws
      (journal depth ⟨{}, line, owner, []⟩ ws []).entries :=
  (evaluate_account depth ⟨{}, line, owner, []⟩ ws standard).tallies

/-- What a line of the host does to them. -/
theorem runRequest_tallies (text : String) {ws : Workspace} (standard : ws.Standard) :
    (runRequest text ws).Tallies none ws (requestJournal text ws).entries := by
  have begun : ws.beginRequest.Standard := ⟨standard.registry_eq⟩
  have tallies := evaluate_tallies (depthBound text 0) text none begun
  rw [← requestJournal] at tallies
  have same : ws.beginRequest.globals = ws.globals := rfl
  rw [runRequest, runBare]
  -- The depth is a large number, which must not be computed.
  generalize evaluate (depthBound text 0) {} text none [] ws.beginRequest = run at tallies ⊢
  refine ((tallies.of_globals_eq same).bind ?_).bind ?_
  · exact fun _ _ => rfl
  · intro _ last
    unfold Workspace.endRequest
    dsimp only
    split <;> rfl

end Line

/-- So does a tick. -/
theorem Instance.tick_tallies (i : Instance) {ws : Workspace} (standard : ws.Standard) :
    (i.tick ws).Tallies (some i) ws (i.tickEntries ws) := by
  cases here : i.source[i.counter]? with
  | none =>
    simp only [tick, tickEntries, here, Option.map_none, Option.getD_none]
    exact ⟨.done (Line.tallied_of_keepsLists (.refl _) fun _ => rfl),
      fun pending => absurd rfl (pending _ _)⟩
  | some line =>
    have entries : i.tickEntries ws = (i.lineJournal line ws []).entries := by
      rw [tickEntries, here, Option.map_some, Option.getD_some]
    have tallies := Line.evaluate_tallies (Line.depthBound line i.extent) line (some i) standard
    rw [← lineJournal, ← entries] at tallies
    simp only [tick, here]
    generalize Line.evaluate (Line.depthBound line i.extent) {} line (some i) [] ws = run
      at tallies ⊢
    refine tallies.bind fun e last => ?_
    unfold conclude
    dsimp only
    split <;> rfl

end LineScript
