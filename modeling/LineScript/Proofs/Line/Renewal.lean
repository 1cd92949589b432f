import LineScript.Proofs.Command.Tail
import LineScript.Proofs.Line.Kinds

/-!
# Lists and objects are changed where they are seen

`listadd` and `objset` look a variable up and then set it to what they have seen, with something
added. To look up and to set are two requests, and each decides for itself which scope is meant:
that of the owner, if it has a variable of the name, and else the global one. In scopes whose names
are in order the two come to the same binding, and to set it is granted (`Context.update_rebinds`).
So a line of these commands replaces the very binding that it has read, or it fails and changes
nothing.

* `Line.Rebinds` says that one binding is replaced and every other one of both scopes is kept.
* `Renewal` is what a command makes of the variable that it sees, and `Line.booked_renew` says what
  becomes of a line that has only such a change left to do.
-/

namespace LineScript

/-! ## One binding -/

theorem Scope.assign_of_get? {s : Scope} {name : String} {old value : Value} (named : s.Named)
    (found : s.get? name = some old) (same : value.kind = old.kind) :
    s.assign name value = .ok ⟨s.bindings.insert name value⟩ := by
  have checked : checkName name = .ok () := named name old.kind (by simp [kind?, found])
  simp [assign, checked, found, same, bind, Except.bind]

namespace Line

/-- The variables that a line can reach have names that variables may have. -/
structure Named (owner : Option Instance) (ws : Workspace) : Prop where
  globals : ws.globals.Named
  locals : ∀ i, owner = some i → i.locals.Named

/-- The binding that a line sees under a name is replaced, and every other one is kept, of both
scopes. -/
inductive Rebinds (owner : Option Instance) (ws : Workspace) (name : String) (value : Value) :
    Option Instance → Workspace → Prop where
  /-- It is one of the owner. -/
  | own {i : Instance} {locals : Scope} (mine : owner = some i)
      (bound : i.locals.contains name = true)
      (binds : ∀ key, locals.get? key = if key = name then some value else i.locals.get? key) :
      Rebinds owner ws name value (some { i with locals }) ws
  /-- It is a global one, and the owner has none of that name. -/
  | global {globals : Scope} (bound : ws.globals.contains name = true)
      (hidden : ∀ i, owner = some i → i.locals.contains name = false)
      (binds : ∀ key, globals.get? key = if key = name then some value else ws.globals.get? key) :
      Rebinds owner ws name value owner { ws with globals }

end Line

theorem Scope.contains_eq (s : Scope) (name : String) : s.contains name = (s.get? name).isSome :=
  rfl

/-- To set a variable where it is seen is to set it in the scope in which it was found. -/
theorem Context.update_of_seen {ctx : Context} {ws : Workspace} {name : String} {old : Value}
    (seen : Scope.visible? ctx.locals ws.globals name = some old) :
    (∃ i, ctx.owner = some i ∧ i.locals.get? name = some old ∧
        ∀ value, ctx.update ws name value = ctx.assign ws name value) ∨
      (∀ i, ctx.owner = some i → i.locals.contains name = false) ∧
        ws.globals.get? name = some old ∧
        ∀ value, ctx.update ws name value = ctx.assignGlobal ws name value := by
  unfold locals at seen
  cases owner : ctx.owner with
  | none =>
    rw [owner] at seen
    have found : ws.globals.get? name = some old := seen
    refine .inr ⟨nofun, found, fun value => ?_⟩
    simp [update, locals, owner, Scope.contains_eq, found]
  | some i =>
    rw [owner] at seen
    cases mine : i.locals.get? name with
    | some own =>
      simp only [Scope.visible?, Option.map_some, Option.bind_some, mine] at seen
      refine .inl ⟨i, rfl, mine.trans seen, fun value => ?_⟩
      simp [update, locals, owner, Scope.contains_eq, mine]
    | none =>
      simp only [Scope.visible?, Option.map_some, Option.bind_some, mine] at seen
      refine .inr ⟨?_, seen, fun value => ?_⟩
      · rintro _ ⟨⟩
        rw [Scope.contains_eq, mine, Option.isSome_none]
      · simp [update, locals, owner, Scope.contains_eq, mine, seen]

/-- What is seen is what is set. -/
theorem Context.update_rebinds {ctx : Context} {ws : Workspace} {name : String} {old value : Value}
    (named : Line.Named ctx.owner ws)
    (seen : Scope.visible? ctx.locals ws.globals name = some old) (same : value.kind = old.kind) :
    ∃ owner' ws', ctx.update ws name value = (.ok (), { ctx with owner := owner' }, ws') ∧
      Line.Rebinds ctx.owner ws name value owner' ws' := by
  rcases update_of_seen seen with ⟨i, owner, found, own⟩ | ⟨hidden, found, global⟩
  · have set := Scope.assign_of_get? (named.locals i owner) found same
    have bound : i.locals.contains name = true := by
      rw [Scope.contains_eq, found, Option.isSome_some]
    refine ⟨some { i with locals := ⟨i.locals.bindings.insert name value⟩ }, ws, ?_,
      .own owner bound fun key => Bindings.get?_insert _ _ _ _⟩
    rw [own]
    simp only [assign, owner, set]
  · have set := Scope.assign_of_get? named.globals found same
    have bound : ws.globals.contains name = true := by
      rw [Scope.contains_eq, found, Option.isSome_some]
    refine ⟨ctx.owner, { ws with globals := ⟨ws.globals.bindings.insert name value⟩ }, ?_,
      .global bound hidden fun key => Bindings.get?_insert _ _ _ _⟩
    rw [global]
    simp only [assignGlobal, set]

/-! ## Renewals -/

/-- What a command makes of the variable that it sees: the value that it shall have, or a fault. -/
abbrev Renewal := Option Value → Except Fault Value

namespace Renewal

variable {name : String} {seen : Option Value} {value : Value}

/-- A list with one more item. -/
def append (name item : String) : Renewal
  | some (.list items) => .ok (.list (items ++ [item]))
  | some _ => .error (.wrongKind name .list)
  | none => .error (.unknownVariable name)

/-- An object with a key set. -/
def setKey (name key text : String) : Renewal
  | some (.object fields) => .ok (.object (fields.insert key text))
  | some _ => .error (.wrongKind name .object)
  | none => .error (.unknownVariable name)

theorem append_eq_error {item : String} (other : ∀ items, seen ≠ some (.list items)) :
    ∃ fault, append name item seen = .error fault := by
  unfold append
  split
  · exact absurd rfl (other _)
  · exact ⟨_, rfl⟩
  · exact ⟨_, rfl⟩

theorem setKey_eq_error {key text : String} (other : ∀ fields, seen ≠ some (.object fields)) :
    ∃ fault, setKey name key text seen = .error fault := by
  unfold setKey
  split
  · exact absurd rfl (other _)
  · exact ⟨_, rfl⟩
  · exact ⟨_, rfl⟩

end Renewal

namespace Step

/-- Look a variable up, and set it to what becomes of it. -/
def renew (name : String) (renewal : Renewal) : Step Unit := do
  update name (← ofExcept id (renewal (← getVariable name)))

theorem listItems_bind_update (name item : String) :
    (Builtin.listItems name >>= fun items => update name (.list (items ++ [item]))) =
      renew name (.append name item) := by
  unfold Builtin.listItems renew
  rw [bind_assoc]
  congr 1
  funext seen
  rcases seen with _ | ⟨_ | _ | _⟩ <;> rfl

theorem objectFields_bind_update (name key text : String) :
    (Builtin.objectFields name >>= fun fields => update name (.object (fields.insert key text))) =
      renew name (.setKey name key text) := by
  unfold Builtin.objectFields renew
  rw [bind_assoc]
  congr 1
  funext seen
  rcases seen with _ | ⟨_ | _ | _⟩ <;> rfl

end Step

/-- The command of `objset`, with its checks in their place. -/
theorem Builtin.objSet_run (args : List String) :
    objSet.run args = (Step.expand (arg args 0) >>= fun name =>
      Step.expand (arg args 1) >>= fun key =>
        if name = "" ∨ key = "" then throw .usage
        else Step.expand (rest args 2) >>= fun text =>
          objectFields name >>= fun fields =>
            Step.update name (.object (fields.insert key text))) := by
  simp only [objSet, nameAndKey, expanded, expandedRest, bind_assoc]
  congr 1
  funext name
  congr 1
  funext key
  split <;> rfl

/-! ## Lines -/

namespace Line

variable {schema : Schema} {depth : Nat} {ctx : Context} {ws last : Workspace} {name : String}
  {renewal : Renewal} {e : Ended} {log : List Entry} {call : Call} {args : List String}

/-- A line that has this step left to do is over at once, and has made these entries after
inquiries. -/
def Completes (schema : Schema) (depth : Nat) (step : Step Unit) (ctx : Context) (ws : Workspace)
    (e : Ended) (last : Workspace) (log : List Entry) : Prop :=
  ∃ asked, Plain asked ∧ Booked (carry schema depth step.run ctx ws)
    (carryBook schema depth step.run ctx ws) e last (asked ++ log)

/-- To have references replaced leaves a line where it is. -/
theorem completes_expand {template : String} {f : String → Step Unit}
    (h : Completes schema depth (f (Template.expand (ctx.lookup ws) template)) ctx ws e last log) :
    Completes schema depth (Step.expand template >>= f) ctx ws e last log := by
  obtain ⟨asked, plain, booked⟩ := h
  exact ⟨_, (Plain.asked (r := .expand template) rfl ctx.line _).append plain, carry_ask booked⟩

/-- So does it to look a variable up. -/
theorem completes_look {f : Option Value → Step Unit}
    (h : Completes schema depth (f (Scope.visible? ctx.locals ws.globals name)) ctx ws e last log) :
    Completes schema depth (Step.getVariable name >>= f) ctx ws e last log := by
  obtain ⟨asked, plain, booked⟩ := h
  exact ⟨_, (Plain.asked (r := .variable name) rfl ctx.line _).append plain, carry_ask booked⟩

/-- The last thing that a line does is to set a variable where it sees it. -/
theorem completes_update {value : Value} {ctx' : Context}
    (granted : ctx.update ws name value = (.ok (), ctx', last)) :
    Completes schema depth (Step.update name value) ctx ws (ended ctx') last
      [⟨ctx.line, .asked (.update name value) (.ok ())⟩] := by
  have answer : ctx.answer ws (.update name value) = (.ok (), ctx', last) := granted
  have ends : (fun reply : Except AssignError Unit => (Step.ofExcept Fault.assign reply).run)
      (ctx.answer ws (.update name value)).1 = .done (.ok ()) := by
    rw [answer]
    rfl
  have booked := @carry_ask_done schema depth ctx ws (.update name value) _ _ ends
  rw [answer] at booked
  exact ⟨[], .nil, booked⟩

/-- The line changes the variable that it sees. -/
theorem completes_renew (schema : Schema) (depth : Nat) {old value : Value}
    (named : Named ctx.owner ws) (seen : Scope.visible? ctx.locals ws.globals name = some old)
    (renews : renewal (some old) = .ok value) (same : value.kind = old.kind) :
    ∃ owner' ws', Rebinds ctx.owner ws name value owner' ws' ∧
      Completes schema depth (Step.renew name renewal) ctx ws (ended { ctx with owner := owner' })
        ws' [⟨ctx.line, .asked (.update name value) (.ok ())⟩] := by
  obtain ⟨owner', ws', granted, rebinds⟩ := Context.update_rebinds named seen same
  refine ⟨owner', ws', rebinds, completes_look ?_⟩
  rw [seen, renews]
  exact completes_update granted

/-- A line that does not see what it could change fails. -/
theorem completes_renew_error (schema : Schema) (depth : Nat) {fault : Fault}
    (refused : renewal (Scope.visible? ctx.locals ws.globals name) = .error fault) :
    Completes schema depth (Step.renew name renewal) ctx ws
      (leave schema ws.config.errorColor (.error fault, ctx)) ws [] := by
  refine completes_look ?_
  rw [refused]
  exact ⟨[], .nil, carry_done _⟩

/-! ### The two commands -/

/-- A line of `listadd` that names a list and has a value for it. -/
theorem completes_listAdd {item : String}
    (reading : read ws.registry call.line = .runs Builtin.listAdd args)
    (list : word call.context ws 0 = name) (given : name ≠ "")
    (value : tail call.context ws 1 = some item)
    (h : Completes schema depth (Step.renew name (.append name item)) call.context ws e last log) :
    Completes schema depth (Builtin.listAdd.run args) call.context ws e last log := by
  obtain ⟨_, split, -⟩ := find?_of_read_runs reading
  rw [word_eq call.context split] at list
  rw [tail_eq call.context split] at value
  have text : Template.expand (call.context.lookup ws) (Builtin.rest args 1) = item := by
    rw [← getD_textFrom, value, Option.getD_some]
  have enough : ¬ args.length < 2 := by
    rw [← isNone_textFrom call.context ws args 1, value]
    simp
  refine completes_expand (completes_expand ?_)
  rw [list, text, if_neg (by simp [given, enough]), Step.listItems_bind_update]
  exact h

/-- A line of `objset` that names an object and a key. -/
theorem completes_objSet {key : String}
    (reading : read ws.registry call.line = .runs Builtin.objSet args)
    (object : word call.context ws 0 = name) (given : name ≠ "")
    (field : word call.context ws 1 = key) (keyed : key ≠ "")
    (h : Completes schema depth
      (Step.renew name (.setKey name key ((tail call.context ws 2).getD ""))) call.context ws e last
      log) :
    Completes schema depth (Builtin.objSet.run args) call.context ws e last log := by
  obtain ⟨_, split, -⟩ := find?_of_read_runs reading
  rw [word_eq call.context split] at object field
  rw [tail_eq call.context split, getD_textFrom] at h
  rw [Builtin.objSet_run]
  refine completes_expand (completes_expand ?_)
  rw [object, field, if_neg (by simp [given, keyed])]
  refine completes_expand ?_
  rw [Step.objectFields_bind_update]
  exact h

/-! ### What they come to -/

/-- The line replaces the binding that it sees under a name, and does nothing else: it has
succeeded, and has nothing to say. -/
structure Replaces (call : Call) (depth : Nat) (ws : Workspace) (name : String) (value : Value) :
    Prop where
  evaluated : ∃ owner' ws',
    call.evaluate (evaluate depth) ws = .done ⟨{}, owner', call.transcript⟩ ws' ∧
      Rebinds call.owner ws name value owner' ws'
  granted : ∀ found, (journal depth call ws found).entries.filter (·.isGrant) =
    [⟨call.line, .asked (.update name value) (.ok ())⟩]

/-- The line fails, and changes nothing. -/
structure Fails (call : Call) (depth : Nat) (ws : Workspace) : Prop where
  evaluated : ∃ e, call.evaluate (evaluate depth) ws = .done e ws ∧ e.evaluation.failed = true ∧
    e.owner = call.owner
  granted : ∀ found, (journal depth call ws found).entries.filter (·.isGrant) = []

/-- A line does what its command does with its arguments. -/
theorem Completes.of_read {c : Command} (reading : read ws.registry call.line = .runs c args)
    (h : Completes c.schema depth (c.run args) call.context ws e last log) :
    call.evaluate (evaluate (depth + 1)) ws = .done e last ∧
      ∀ found, (journal (depth + 1) call ws found).entries.filter (·.isGrant) =
        log.filter (·.isGrant) := by
  obtain ⟨asked, plain, booked⟩ := h
  have none : asked.filter (·.isGrant) = [] :=
    List.filter_eq_nil_iff.mpr fun entry mem => by simp [(plain entry mem).1]
  constructor
  · simp only [Call.evaluate, evaluate_succ, reading]
    exact booked.run_eq
  · intro found
    have entries : journal (depth + 1) call ws found =
        carryBook c.schema depth (c.run args).run call.context ws found := by
      unfold journal recordLine
      simp only [reading]
      rfl
    rw [entries, booked.book_eq, List.filter_append, none, List.nil_append]

section

variable {c : Command} (reading : read ws.registry call.line = .runs c args)
  (does : ∀ {e last log},
    Completes c.schema depth (Step.renew name renewal) call.context ws e last log →
      Completes c.schema depth (c.run args) call.context ws e last log)
include reading does

/-- A line that comes down to a change of a variable, and sees one that can be changed. -/
theorem replaces_of_renew {old value : Value} (named : Named call.owner ws)
    (seen : Scope.visible? call.context.locals ws.globals name = some old)
    (renews : renewal (some old) = .ok value) (same : value.kind = old.kind) :
    Replaces call (depth + 1) ws name value := by
  obtain ⟨owner', ws', rebinds, completes⟩ :=
    completes_renew c.schema depth named seen renews same
  obtain ⟨evaluated, granted⟩ := (does completes).of_read reading
  exact ⟨⟨owner', ws', evaluated, rebinds⟩, granted⟩

/-- The same line, if it does not. -/
theorem fails_of_renew {fault : Fault}
    (refused : renewal (Scope.visible? call.context.locals ws.globals name) = .error fault) :
    Fails call (depth + 1) ws := by
  have completes := completes_renew_error c.schema depth refused
  obtain ⟨evaluated, granted⟩ := (does completes).of_read reading
  exact ⟨⟨_, evaluated, rfl, rfl⟩, granted⟩

end

theorem listAdd_replaces {item : String} {items : List String} (named : Named call.owner ws)
    (reading : read ws.registry call.line = .runs Builtin.listAdd args)
    (list : word call.context ws 0 = name) (given : name ≠ "")
    (value : tail call.context ws 1 = some item)
    (seen : Scope.visible? call.context.locals ws.globals name = some (.list items)) :
    Replaces call (depth + 1) ws name (.list (items ++ [item])) :=
  replaces_of_renew reading (completes_listAdd reading list given value) named seen rfl rfl

theorem listAdd_fails {item : String}
    (reading : read ws.registry call.line = .runs Builtin.listAdd args)
    (list : word call.context ws 0 = name) (given : name ≠ "")
    (value : tail call.context ws 1 = some item)
    (other : ∀ items, Scope.visible? call.context.locals ws.globals name ≠ some (.list items)) :
    Fails call (depth + 1) ws := by
  obtain ⟨fault, refused⟩ := Renewal.append_eq_error other
  exact fails_of_renew reading (completes_listAdd reading list given value) refused

theorem objSet_replaces {key : String} {fields : Bindings String} (named : Named call.owner ws)
    (reading : read ws.registry call.line = .runs Builtin.objSet args)
    (object : word call.context ws 0 = name) (given : name ≠ "")
    (field : word call.context ws 1 = key) (keyed : key ≠ "")
    (seen : Scope.visible? call.context.locals ws.globals name = some (.object fields)) :
    Replaces call (depth + 1) ws name
      (.object (fields.insert key ((tail call.context ws 2).getD ""))) :=
  replaces_of_renew reading (completes_objSet reading object given field keyed) named seen rfl rfl

theorem objSet_fails {key : String}
    (reading : read ws.registry call.line = .runs Builtin.objSet args)
    (object : word call.context ws 0 = name) (given : name ≠ "")
    (field : word call.context ws 1 = key) (keyed : key ≠ "")
    (other : ∀ fields, Scope.visible? call.context.locals ws.globals name ≠ some (.object fields)) :
    Fails call (depth + 1) ws := by
  obtain ⟨fault, refused⟩ := Renewal.setKey_eq_error other
  exact fails_of_renew reading (completes_objSet reading object given field keyed) refused

end Line

end LineScript
