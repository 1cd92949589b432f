import LineScript.Proofs.Command.Tail
import LineScript.Proofs.Template.Escaping

/-!
# Texts in variables

A text that is stored in a variable comes out of it as it went in: a line that sets a variable to
the text written as a template, and a line that prints the variable, say the text and no more. The
template is replaced once, when the text is stored, and what a name stands for is not looked at
again, when it is shown.
-/

namespace LineScript

namespace Template

/-! ## Names -/

section

variable {c : Char} (letter : isLetter c = true)
include letter

theorem toNat_of_isLetter : 65 ≤ c.toNat ∧ c.toNat ≤ 122 := by
  rcases Bool.or_eq_true_iff.mp letter with upper | lower
  · obtain ⟨low, high⟩ : c.val ≥ 'A'.val ∧ c.val ≤ 'Z'.val := of_decide_eq_true upper
    have from65 : 65 ≤ c.toNat := UInt32.le_iff_toNat_le.mp low
    have upTo90 : c.toNat ≤ 90 := UInt32.le_iff_toNat_le.mp high
    omega
  · obtain ⟨low, high⟩ := Bool.and_eq_true_iff.mp lower
    have from97 : 97 ≤ c.toNat := UInt32.le_iff_toNat_le.mp (of_decide_eq_true low)
    have upTo122 : c.toNat ≤ 122 := UInt32.le_iff_toNat_le.mp (of_decide_eq_true high)
    omega

theorem isBlank_of_isLetter : Text.isBlank c = false := by
  rw [Bool.eq_false_iff]
  intro blank
  obtain ⟨range, mem, low, high⟩ := Text.inRanges_iff.mp blank
  have bounds := toNat_of_isLetter letter
  -- Blanks come before the letters or after them.
  have outside : ∀ range ∈ Text.blankRanges, range.2 < 65 ∨ 122 < range.1 := by decide
  have := outside range mem
  omega

theorem isDigit_of_isLetter : c.isDigit = false := by
  have bounds := toNat_of_isLetter letter
  rw [Bool.eq_false_iff]
  intro digit
  have range : 48 ≤ c.toNat ∧ c.toNat ≤ 57 := by
    simpa [Char.isDigit, UInt32.le_iff_toNat_le] using digit
  omega

end

section

variable {name : String} (isName : IsName name.toList)
include isName

theorem IsName.isNameChar_of_mem {c : Char} (mem : c ∈ name.toList) : isNameChar c = true := by
  cases eq : name.toList with
  | nil => simp [eq] at mem
  | cons first others =>
    rw [eq] at isName mem
    rcases List.mem_cons.mp mem with rfl | later
    · exact Bool.or_eq_true_iff.mpr (.inl isName.1)
    · exact isName.2 c later

theorem IsName.notMem {c : Char} (other : isNameChar c = false) : c ∉ name.toList := by
  intro mem
  rw [isName.isNameChar_of_mem mem] at other
  cases other

theorem IsName.checkName : checkName name = .ok () := by
  unfold LineScript.checkName
  cases eq : name.toList with
  | nil => simp [eq, IsName] at isName
  | cons first others =>
    rw [eq] at isName
    simp [isDigit_of_isLetter isName.1]

theorem IsName.ne_empty : name ≠ "" := by
  rintro rfl
  exact isName

/-- A name after a sign stands for what is found under it. -/
theorem IsName.expand_reference {lookup : String → Option String} {text : String}
    (found : lookup name = some text) : expand lookup ("$" ++ name) = text := by
  have fits : (Piece.name name.toList).Fits [] := ⟨isName, nofun⟩
  have alone := filled_spelling lookup fits
  apply String.toList_injective
  rw [List.append_nil, filled_nil, List.append_nil, fill_name, String.ofList_toList, found] at alone
  simpa [Piece.spelling] using alone

end

end Template

namespace Line

/-! ## Lines put together -/

section

variable {line : String} {c : Char} (first : c ∈ line.toList.head?)
  (letter : Template.isLetter c = true)
include first letter

/-- A line that starts with a letter and has no carriage returns counts as a whole. -/
theorem content_of_letter (free : '\r' ∉ line.toList) : content line = line := by
  obtain ⟨rest, eq⟩ := List.head?_eq_some_iff.mp first
  have trimmed : Text.trimStart line = line := by
    apply String.toList_injective
    rw [Text.toList_trimStart, eq, List.dropWhile_cons_of_neg]
    simp [Template.isBlank_of_isLetter letter]
  apply String.toList_injective
  rw [content, trimmed, Text.toList_dropReturns, List.filter_eq_self]
  intro x mem
  simpa using fun eq : x = '\r' => free (eq ▸ mem)

theorem isIdle_of_letter : isIdle line = false := by
  obtain ⟨rest, eq⟩ := List.head?_eq_some_iff.mp first
  have noHash : c ≠ '#' := by
    rintro rfl
    cases letter
  have noSlash : c ≠ '/' := by
    rintro rfl
    cases letter
  simp [isIdle, eq, noHash, noSlash]

end

/-- A line that is put together from the name of a command and arguments is read so. -/
theorem read_unfields {registry : Registry} {name : String} {args : List String} {c : Char}
    {command : Command} (first : c ∈ name.toList.head?) (letter : Template.isLetter c = true)
    (plain : ∀ token ∈ name :: args, ' ' ∉ token.toList ∧ '\r' ∉ token.toList)
    (found : registry.find? name = some command) :
    read registry (Text.unfields (name :: args)) = .runs command args := by
  have starts : c ∈ (Text.unfields (name :: args)).toList.head? := Text.head?_unfields first
  have clean : '\r' ∉ (Text.unfields (name :: args)).toList :=
    Text.notMem_unfields (by decide) fun token mem => (plain token mem).2
  have whole := content_of_letter starts letter clean
  refine read_runs_of_find? ?_ ?_ found
  · rw [whole, isIdle_of_letter starts letter]
  · rw [whole, Text.fields_unfields (List.cons_ne_nil name args) fun token mem =>
      (plain token mem).1]

/-! ## Storing a text -/

/-- The variables that a line sets: those of its owner, or the global ones. -/
def activeScope (owner : Option Instance) (ws : Workspace) : Scope :=
  (owner.map (·.locals)).getD ws.globals

/-- The owner and the workspace after a text has been stored under a name. -/
def stored (name text : String) (owner : Option Instance) (ws : Workspace) :
    Option Instance × Workspace :=
  let scope : Scope := ⟨(activeScope owner ws).bindings.insert name (.text text)⟩
  match owner with
  | some i => (some { i with locals := scope }, ws)
  | none => (none, { ws with globals := scope })

section

variable {name text : String} {owner : Option Instance} {ws : Workspace}

@[simp] theorem registry_stored : (stored name text owner ws).2.registry = ws.registry := by
  cases owner <;> rfl

/-- A stored text is what its name stands for, for the owner that stored it. -/
theorem visibleText?_stored :
    Scope.visibleText? ((stored name text owner ws).1.map (·.locals))
      (stored name text owner ws).2.globals name = some text := by
  rw [Scope.visibleText?_eq_some_iff]
  cases owner with
  | none => exact .shared nofun (Bindings.get?_insert_self _ _ _)
  | some i => exact .own rfl (Bindings.get?_insert_self _ _ _)

/-- A text can be stored under a faultless name that holds nothing but texts. -/
theorem assign_text (ctx : Context) (faultless : checkName name = .ok ())
    (texts : ∀ value ∈ (activeScope ctx.owner ws).get? name, value.kind = .text) :
    ctx.assign ws name (.text text) =
      (.ok (), { ctx with owner := (stored name text ctx.owner ws).1 },
        (stored name text ctx.owner ws).2) := by
  have assigned : (activeScope ctx.owner ws).assign name (.text text) =
      .ok ⟨(activeScope ctx.owner ws).bindings.insert name (.text text)⟩ := by
    unfold Scope.assign
    rw [faultless]
    cases bound : (activeScope ctx.owner ws).get? name with
    | none => rfl
    | some value => exact if_pos (texts value bound)
  -- The same assignment is made in the owner's scope or in the global one.
  obtain ⟨line, mode, owner, transcript, parts, failed, jump⟩ := ctx
  cases owner with
  | none =>
    have globals : ws.globals.assign name (.text text) =
        .ok ⟨ws.globals.bindings.insert name (.text text)⟩ := assigned
    simp only [Context.assign, globals]
    rfl
  | some i =>
    have locals : i.locals.assign name (.text text) =
        .ok ⟨i.locals.bindings.insert name (.text text)⟩ := assigned
    simp only [Context.assign, locals]
    rfl

end

section

variable {name text : String} (isName : Template.IsName name.toList) {ctx : Context}
  {ws : Workspace} (nested : Evaluator)
include isName

theorem perform_assign_text
    (texts : ∀ value ∈ (activeScope ctx.owner ws).get? name, value.kind = .text) :
    perform nested (Step.assign name (.text text)).run ctx ws =
      .done (.ok (), { ctx with owner := (stored name text ctx.owner ws).1 })
        (stored name text ctx.owner ws).2 := by
  have assigned : perform nested (Step.assign name (.text text)).run ctx ws =
      let reply := ctx.assign ws name (.text text)
      perform nested (Step.ofExcept .assign reply.1).run reply.2.1 reply.2.2 := rfl
  rw [assigned, assign_text ctx isName.checkName texts]
  rfl

theorem perform_var {template : String} (some : text ≠ "")
    (written : Template.expand (ctx.lookup ws) template = text)
    (texts : ∀ value ∈ (activeScope ctx.owner ws).get? name, value.kind = .text) :
    perform nested (Builtin.var.run [name, template]).run ctx ws =
      .done (.ok (), { ctx with owner := (stored name text ctx.owner ws).1 })
        (stored name text ctx.owner ws).2 := by
  -- The name goes through a replacement, too, but holds no reference.
  have named : Template.expand (ctx.lookup ws) (Builtin.arg [name, template] 0) = name :=
    Template.expand_of_free (isName.notMem (by decide))
  have taken : Template.expand (ctx.lookup ws) (Builtin.rest [name, template] 1) = text := by
    simp [Builtin.rest, Text.unfields, written]
  have refused : ¬ (name = "" ∨ text = "") := not_or.mpr ⟨isName.ne_empty, some⟩
  simp only [Builtin.var, Builtin.nameAndText, Builtin.expanded, Builtin.expandedRest, bind_assoc,
    perform_expand_bind, named, taken]
  rw [if_neg refused]
  exact perform_assign_text isName nested texts

end

/-! ## Showing it again -/

section

variable {name text : String} (isName : Template.IsName name.toList) {owner : Option Instance}
  {ws : Workspace} (builtins : ws.registry.HoldsBuiltins) (depth : Nat) (mode : Mode)
  (transcript : List Message)
include isName builtins

theorem evaluate_var {template : String} (some : text ≠ "")
    (plain : ' ' ∉ template.toList ∧ '\r' ∉ template.toList)
    (written : ∀ lookup, Template.expand lookup template = text)
    (texts : ∀ value ∈ (activeScope owner ws).get? name, value.kind = .text) :
    evaluate (depth + 1) mode ("var " ++ name ++ " " ++ template) owner transcript ws =
      .done ⟨{}, (stored name text owner ws).1, transcript⟩ (stored name text owner ws).2 := by
  have line : "var " ++ name ++ " " ++ template = Text.unfields ["var", name, template] := by
    apply String.toList_injective
    simp [Text.unfields]
  have reading : read ws.registry ("var " ++ name ++ " " ++ template) =
      .runs Builtin.var [name, template] := by
    rw [line]
    refine read_unfields (c := 'v') (by decide) (by decide) ?_
      (builtins.find? (by simp [LineScript.builtins]) (by decide +kernel))
    simp [plain, isName.notMem (c := ' ') (by decide), isName.notMem (c := '\r') (by decide)]
  rw [evaluate_succ, reading]
  dsimp only
  rw [perform_var isName (evaluate depth) some (written _) texts]
  rfl

theorem evaluate_print
    (bound : Scope.visibleText? (owner.map (·.locals)) ws.globals name = some text)
    (shown : mode.quiet = false) :
    evaluate (depth + 1) mode ("print $" ++ name) owner transcript ws =
      .done ⟨{ captured := text }, owner, transcript ++ [.output (text ++ "\n") {}]⟩ ws := by
  have line : "print $" ++ name = Text.unfields ["print", "$" ++ name] := by
    apply String.toList_injective
    simp [Text.unfields]
  have reading : read ws.registry ("print $" ++ name) = .runs Builtin.print ["$" ++ name] := by
    rw [line]
    refine read_unfields (c := 'p') (by decide) (by decide) ?_
      (builtins.find? (by simp [LineScript.builtins]) (by decide +kernel))
    simp [isName.notMem (c := ' ') (by decide), isName.notMem (c := '\r') (by decide)]
  let ctx : Context := { line := "print $" ++ name, mode, owner, transcript }
  have found : Template.expand (ctx.lookup ws) (Builtin.rest ["$" ++ name] 0) = text := by
    have whole : Builtin.rest ["$" ++ name] 0 = "$" ++ name := by
      simp [Builtin.rest, Text.unfields]
    rw [whole]
    exact isName.expand_reference bound
  have performed : perform (evaluate depth) (Builtin.print.run ["$" ++ name]).run ctx ws =
      perform (evaluate depth) (Step.respond text).run ctx ws := by
    simp only [Builtin.print, Builtin.expandedRest, perform_expand_bind, found]
  have said : ended (ctx.respond text {}) =
      ⟨{ captured := text }, owner, transcript ++ [.output (text ++ "\n") {}]⟩ := by
    simp [ended, Context.respond, Context.display, Context.say, Context.evaluation, ctx, shown]
  rw [evaluate_succ, reading]
  show (perform (evaluate depth) (Builtin.print.run ["$" ++ name]).run ctx ws).bind _ = _
  rw [performed, ← said]
  rfl

end

/-- Every text can be written as a template that comes out as the text, whatever the variables are.
Stored under a name that held no list and no object, it is shown as it is by the same owner. -/
theorem stored_text_is_shown_unchanged (text : String) (some : text ≠ "")
    (free : '\r' ∉ text.toList) :
    ∃ template : String, '\n' ∉ template.toList ∧ '\r' ∉ template.toList ∧
      (∀ lookup, Template.expand lookup template = text) ∧
      ∀ (name : String) (owner : Option Instance) (ws : Workspace),
        Template.IsName name.toList → ws.registry.HoldsBuiltins →
        (∀ value ∈ (activeScope owner ws).get? name, value.kind = .text) →
        (∀ (depth : Nat) (mode : Mode) (transcript : List Message),
          evaluate (depth + 1) mode ("var " ++ name ++ " " ++ template) owner transcript ws =
            .done ⟨{}, (stored name text owner ws).1, transcript⟩ (stored name text owner ws).2) ∧
        ∀ (depth : Nat) (mode : Mode) (transcript : List Message), mode.quiet = false →
          evaluate (depth + 1) mode ("print $" ++ name) (stored name text owner ws).1 transcript
              (stored name text owner ws).2 =
            .done ⟨{ captured := text }, (stored name text owner ws).1,
              transcript ++ [.output (text ++ "\n") {}]⟩ (stored name text owner ws).2 := by
  refine ⟨Template.quote text, Template.lineFeed_notMem_quote text,
    Template.return_notMem_quote free, fun lookup => Template.expand_quote text, ?_⟩
  intro name owner ws isName builtins texts
  constructor
  · intro depth mode transcript
    have plain := And.intro (Template.space_notMem_quote text) (Template.return_notMem_quote free)
    exact evaluate_var isName builtins depth mode transcript some plain
      (fun lookup => Template.expand_quote text) texts
  · intro depth mode transcript shown
    have builtins : (stored name text owner ws).2.registry.HoldsBuiltins := by
      rwa [registry_stored]
    exact evaluate_print isName builtins depth mode transcript visibleText?_stored shown

/-- A text with signs, line breaks and runs of spaces is stored and shown by a bare line. -/
theorem awkward_text_is_shown_unchanged :
    let text := "$n  $$s\n $x $_PI"
    ∃ template : String,
      evaluate 1 {} ("var " ++ "x1" ++ " " ++ template) none [] .isolated =
        .done ⟨{}, none, []⟩ (stored "x1" text none .isolated).2 ∧
      evaluate 1 {} ("print $" ++ "x1") none [] (stored "x1" text none .isolated).2 =
        .done ⟨{ captured := text }, none, [.output (text ++ "\n") {}]⟩
          (stored "x1" text none .isolated).2 := by
  intro text
  obtain ⟨template, -, -, -, kept⟩ :=
    stored_text_is_shown_unchanged text (by simp [text]) (by simp [text])
  have isName : Template.IsName "x1".toList := by
    simp [Template.IsName, Template.isLetter, Template.isNameChar]
  have builtins : Workspace.isolated.registry.HoldsBuiltins := by
    rw [Workspace.isolated_standard.registry_eq]
    exact Registry.standard_holdsBuiltins
  have texts : ∀ value ∈ (activeScope none .isolated).get? "x1", value.kind = .text := by
    intro value bound
    cases bound
  obtain ⟨stores, shows⟩ := kept "x1" none .isolated isName builtins texts
  exact ⟨template, stores 0 {} [], shows 0 {} [] rfl⟩

end Line

end LineScript
