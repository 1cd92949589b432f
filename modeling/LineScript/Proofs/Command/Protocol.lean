import LineScript.Command.Action

/-!
# Protocols

A command is a tree of requests, so what it may do can be said of the tree alone, whatever line it
runs on. A `Protocol` says which requests are permitted at which stage of a command and which lines
may be evaluated there. `Action.Ensures` is the weakest precondition of an action under a protocol:
for every reply that a line can give it keeps to the protocol, and at its end the demand holds.

The lemmas follow the way commands are written: one for each way to put steps together, and one for
each request.
-/

namespace LineScript

/-- What a command can rely on in a reply: a line tells the truth about its owner. -/
def Request.Truthful (owner : Option Instance) : (r : Request) → r.Reply → Prop
  | .currentIndex, index => ∀ i, owner = some i → index = i.counter
  | .source, lines => ∀ i, owner = some i → lines = i.source
  | .instanceName, name => name = owner.map (·.name)
  | _, _ => True

/-- What a command may do, by the stage that it has come to. -/
structure Protocol (σ : Type) where
  permits : σ → Request → Prop
  /-- The stage after a reply. -/
  answered : σ → (r : Request) → r.Reply → σ
  /-- A line may be evaluated. -/
  nests : σ → String → Bool → Prop
  /-- The stage after such a line. -/
  returned : σ → Evaluation → σ
  /-- The command may end in a fault. -/
  mayFail : σ → Prop

variable {σ α β : Type} {P : Protocol σ} {owner : Option Instance} {s : σ}

namespace Action

theorem bind_done (x : Action α) : x.bind .done = x := by
  induction x with
  | done value => rfl
  | ask r next ih => simp only [bind, ih]
  | evaluate line quiet next ih => simp only [bind, ih]
  | sleep duration next ih => simp only [bind, ih]
  | runScripts names next ih => simp only [bind, ih]
  | readInput next ih => simp only [bind, ih]

theorem bind_bind {γ : Type} (x : Action α) (f : α → Action β) (g : β → Action γ) :
    (x.bind f).bind g = x.bind fun value => (f value).bind g := by
  induction x with
  | done value => rfl
  | ask r next ih => simp only [bind, ih]
  | evaluate line quiet next ih => simp only [bind, ih]
  | sleep duration next ih => simp only [bind, ih]
  | runScripts names next ih => simp only [bind, ih]
  | readInput next ih => simp only [bind, ih]

instance : LawfulMonad Action :=
  LawfulMonad.mk' Action bind_done (fun _ _ => rfl) bind_bind

/-- From this stage the action keeps to the protocol, and at its end `post` holds. -/
def Ensures (P : Protocol σ) (owner : Option Instance) :
    Action α → σ → (σ → α → Prop) → Prop
  | .done value, s, post => post s value
  | .ask r next, s, post =>
    P.permits s r ∧ ∀ reply, r.Truthful owner reply →
      (next reply).Ensures P owner (P.answered s r reply) post
  | .evaluate line quiet next, s, post =>
    P.nests s line quiet ∧ ∀ e, (next e).Ensures P owner (P.returned s e) post
  | .sleep _ next, s, post => next.Ensures P owner s post
  | .runScripts _ next, s, post => ∀ result, (next result).Ensures P owner s post
  | .readInput next, s, post => ∀ line, (next line).Ensures P owner s post

theorem ensures_bind (x : Action α) (f : α → Action β) (post : σ → β → Prop) :
    (x.bind f).Ensures P owner s post ↔
      x.Ensures P owner s fun s value => (f value).Ensures P owner s post := by
  induction x generalizing s with
  | done value => rfl
  | ask r next ih => simp only [bind, Ensures, ih]
  | evaluate line quiet next ih => simp only [bind, Ensures, ih]
  | sleep duration next ih => simp only [bind, Ensures, ih]
  | runScripts names next ih => simp only [bind, Ensures, ih]
  | readInput next ih => simp only [bind, Ensures, ih]

end Action

namespace Step

/-- The same of an action that may end in a fault, where the protocol lets it. -/
def Ensures (P : Protocol σ) (owner : Option Instance) (step : Step α) (s : σ)
    (post : σ → α → Prop) : Prop :=
  Action.Ensures P owner step.run s fun s result =>
    match result with
    | .ok value => post s value
    | .error _ => P.mayFail s

/-! ## Putting steps together -/

section Combinators

variable {post : σ → α → Prop}

@[simp] theorem ensures_pure (value : α) : Ensures P owner (pure value) s post ↔ post s value :=
  Iff.rfl

@[simp] theorem ensures_throw (fault : Fault) :
    Ensures P owner (throw fault : Step α) s post ↔ P.mayFail s :=
  Iff.rfl

@[simp] theorem ensures_bind (x : Step α) (f : α → Step β) (post : σ → β → Prop) :
    Ensures P owner (x >>= f) s post ↔
      Ensures P owner x s fun s value => Ensures P owner (f value) s post := by
  unfold Ensures
  rw [ExceptT.run_bind]
  refine (Action.ensures_bind _ _ _).trans (iff_of_eq ?_)
  congr 1
  funext s result
  cases result <;> rfl

@[simp] theorem ensures_map (f : α → β) (x : Step α) (post : σ → β → Prop) :
    Ensures P owner (f <$> x) s post ↔ Ensures P owner x s fun s value => post s (f value) := by
  rw [← bind_pure_comp, ensures_bind]
  rfl

@[simp] theorem ensures_discard (x : Step α) (post : σ → Unit → Prop) :
    Ensures P owner (discard x) s post ↔ Ensures P owner x s fun s _ => post s () :=
  ensures_map (fun _ => ()) x post

@[simp] theorem ensures_ite (c : Prop) [Decidable c] (x y : Step α) :
    Ensures P owner (if c then x else y) s post ↔
      (c → Ensures P owner x s post) ∧ (¬c → Ensures P owner y s post) := by
  split <;> simp [*]

@[simp] theorem ensures_need (value? : Option α) :
    Ensures P owner (need value?) s post ↔
      (∀ value, value? = some value → post s value) ∧ (value? = none → P.mayFail s) := by
  cases value? <;> simp [need]

@[simp] theorem ensures_ofExcept {ε : Type} (fault : ε → Fault) (x : Except ε α) :
    Ensures P owner (ofExcept fault x) s post ↔
      (∀ value, x = .ok value → post s value) ∧ (∀ e, x = .error e → P.mayFail s) := by
  cases x <;> simp [ofExcept]

/-- Steps that leave the stage as it is may be taken for each item of a list. -/
theorem ensures_mapM {γ : Type} {f : γ → Step α} {items : List γ}
    (each : ∀ item ∈ items, ∀ post : σ → α → Prop, (∀ value, post s value) →
      Ensures P owner (f item) s post)
    {post : σ → List α → Prop} (h : ∀ values, post s values) :
    Ensures P owner (items.mapM f) s post := by
  induction items generalizing post with
  | nil => exact h []
  | cons item rest ih =>
    rw [List.mapM_cons, ensures_bind]
    refine each item List.mem_cons_self _ fun value => ?_
    rw [ensures_bind]
    refine ih (fun other mem => each other (List.mem_cons_of_mem item mem)) fun values => ?_
    exact h (value :: values)

theorem ensures_forM {γ : Type} {f : γ → Step Unit} {items : List γ}
    (each : ∀ item ∈ items, ∀ post : σ → Unit → Prop, post s () →
      Ensures P owner (f item) s post)
    {post : σ → Unit → Prop} (h : post s ()) : Ensures P owner (items.forM f) s post := by
  induction items with
  | nil => exact h
  | cons item rest ih =>
    show Ensures P owner (f item >>= fun _ => rest.forM f) s post
    rw [ensures_bind]
    refine each item List.mem_cons_self _ ?_
    exact ih fun other mem => each other (List.mem_cons_of_mem item mem)

end Combinators

/-! ## Requests -/

theorem ensures_ask {r : Request} {post : σ → r.Reply → Prop} :
    Ensures P owner (ask r) s post ↔
      P.permits s r ∧ ∀ reply, r.Truthful owner reply → post (P.answered s r reply) reply :=
  Iff.rfl

/-- Most replies may be anything. -/
theorem ensures_ask_of_free (r : Request) (free : ∀ reply, r.Truthful owner reply)
    {post : σ → r.Reply → Prop} :
    Ensures P owner (ask r) s post ↔
      P.permits s r ∧ ∀ reply, post (P.answered s r reply) reply :=
  ensures_ask.trans
    ⟨fun h => ⟨h.1, fun reply => h.2 reply (free reply)⟩, fun h => ⟨h.1, fun reply _ => h.2 reply⟩⟩

@[simp] theorem ensures_write (text : String) (style : Style) {post : σ → Unit → Prop} :
    Ensures P owner (write text style) s post ↔
      P.permits s (.write text style) ∧ ∀ reply : Unit,
        post (P.answered s (.write text style) reply) reply :=
  ensures_ask_of_free (.write text style) fun _ => trivial

@[simp] theorem ensures_respond (text : String) (style : Style) {post : σ → Unit → Prop} :
    Ensures P owner (respond text style) s post ↔
      P.permits s (.respond text style) ∧ ∀ reply : Unit,
        post (P.answered s (.respond text style) reply) reply :=
  ensures_ask_of_free (.respond text style) fun _ => trivial

@[simp] theorem ensures_clearScreen {post : σ → Unit → Prop} :
    Ensures P owner clearScreen s post ↔
      P.permits s .clearScreen ∧ ∀ reply : Unit, post (P.answered s .clearScreen reply) reply :=
  ensures_ask_of_free .clearScreen fun _ => trivial

@[simp] theorem ensures_jump (index : Nat) {post : σ → Bool → Prop} :
    Ensures P owner (jump index) s post ↔
      P.permits s (.jump index) ∧ ∀ reply : Bool, post (P.answered s (.jump index) reply) reply :=
  ensures_ask_of_free (.jump index) fun _ => trivial

@[simp] theorem ensures_expand (template : String) {post : σ → String → Prop} :
    Ensures P owner (expand template) s post ↔
      P.permits s (.expand template) ∧ ∀ reply : String,
        post (P.answered s (.expand template) reply) reply :=
  ensures_ask_of_free (.expand template) fun _ => trivial

@[simp] theorem ensures_getVariable (name : String) {post : σ → Option Value → Prop} :
    Ensures P owner (getVariable name) s post ↔
      P.permits s (.variable name) ∧ ∀ reply : Option Value,
        post (P.answered s (.variable name) reply) reply :=
  ensures_ask_of_free (.variable name) fun _ => trivial

@[simp] theorem ensures_remove (name : String) {post : σ → Unit → Prop} :
    Ensures P owner (remove name) s post ↔
      P.permits s (.remove name) ∧ ∀ reply : Unit, post (P.answered s (.remove name) reply) reply :=
  ensures_ask_of_free (.remove name) fun _ => trivial

@[simp] theorem ensures_removeGlobal (name : String) {post : σ → Unit → Prop} :
    Ensures P owner (removeGlobal name) s post ↔
      P.permits s (.removeGlobal name) ∧ ∀ reply : Unit,
        post (P.answered s (.removeGlobal name) reply) reply :=
  ensures_ask_of_free (.removeGlobal name) fun _ => trivial

@[simp] theorem ensures_schemas {post : σ → List Schema → Prop} :
    Ensures P owner schemas s post ↔
      P.permits s .schemas ∧ ∀ reply : List Schema, post (P.answered s .schemas reply) reply :=
  ensures_ask_of_free .schemas fun _ => trivial

@[simp] theorem ensures_schema? (name : String) {post : σ → Option Schema → Prop} :
    Ensures P owner (schema? name) s post ↔
      P.permits s (.schema name) ∧ ∀ reply : Option Schema,
        post (P.answered s (.schema name) reply) reply :=
  ensures_ask_of_free (.schema name) fun _ => trivial

@[simp] theorem ensures_typingSpeed {post : σ → Option Binary64 → Prop} :
    Ensures P owner typingSpeed s post ↔
      P.permits s .typingSpeed ∧ ∀ reply : Option Binary64,
        post (P.answered s .typingSpeed reply) reply :=
  ensures_ask_of_free .typingSpeed fun _ => trivial

@[simp] theorem ensures_setTypingSpeed (speed : Option Binary64) {post : σ → Unit → Prop} :
    Ensures P owner (setTypingSpeed speed) s post ↔
      P.permits s (.setTypingSpeed speed) ∧ ∀ reply : Unit,
        post (P.answered s (.setTypingSpeed speed) reply) reply :=
  ensures_ask_of_free (.setTypingSpeed speed) fun _ => trivial

@[simp] theorem ensures_draw (bound : Nat) {post : σ → Nat → Prop} :
    Ensures P owner (draw bound) s post ↔
      P.permits s (.draw bound) ∧ ∀ reply : Nat, post (P.answered s (.draw bound) reply) reply :=
  ensures_ask_of_free (.draw bound) fun _ => trivial

@[simp] theorem ensures_assign (name : String) (value : Value) {post : σ → Unit → Prop} :
    Ensures P owner (assign name value) s post ↔
      P.permits s (.assign name value) ∧ ∀ result : Except AssignError Unit,
        Ensures P owner (ofExcept .assign result) (P.answered s (.assign name value) result) post :=
  (ensures_bind _ _ _).trans (ensures_ask_of_free (.assign name value) fun _ => trivial)

@[simp] theorem ensures_update (name : String) (value : Value) {post : σ → Unit → Prop} :
    Ensures P owner (update name value) s post ↔
      P.permits s (.update name value) ∧ ∀ result : Except AssignError Unit,
        Ensures P owner (ofExcept .assign result) (P.answered s (.update name value) result) post :=
  (ensures_bind _ _ _).trans (ensures_ask_of_free (.update name value) fun _ => trivial)

@[simp] theorem ensures_assignGlobal (name : String) (value : Value) {post : σ → Unit → Prop} :
    Ensures P owner (assignGlobal name value) s post ↔
      P.permits s (.assignGlobal name value) ∧ ∀ result : Except AssignError Unit,
        Ensures P owner (ofExcept .assign result)
          (P.answered s (.assignGlobal name value) result) post :=
  (ensures_bind _ _ _).trans (ensures_ask_of_free (.assignGlobal name value) fun _ => trivial)

@[simp] theorem ensures_act (a : Device.Act) {post : σ → Unit → Prop} :
    Ensures P owner (act a) s post ↔
      P.permits s (.act a) ∧ ∀ result : Except DeviceError Unit,
        Ensures P owner (ofExcept .device result) (P.answered s (.act a) result) post :=
  (ensures_bind _ _ _).trans (ensures_ask_of_free (.act a) fun _ => trivial)

@[simp] theorem ensures_position {post : σ → Point → Prop} :
    Ensures P owner position s post ↔
      P.permits s .position ∧ ∀ result : Except DeviceError Point,
        Ensures P owner (ofExcept .device result) (P.answered s .position result) post :=
  (ensures_bind _ _ _).trans (ensures_ask_of_free .position fun _ => trivial)

@[simp] theorem ensures_pixel (point : Point) {post : σ → String → Prop} :
    Ensures P owner (pixel point) s post ↔
      P.permits s (.pixel point) ∧ ∀ result : Except DeviceError String,
        Ensures P owner (ofExcept .device result) (P.answered s (.pixel point) result) post :=
  (ensures_bind _ _ _).trans (ensures_ask_of_free (.pixel point) fun _ => trivial)

@[simp] theorem ensures_screenSize {post : σ → ScreenSize → Prop} :
    Ensures P owner screenSize s post ↔
      P.permits s .screenSize ∧ ∀ result : Except DeviceError ScreenSize,
        Ensures P owner (ofExcept .device result) (P.answered s .screenSize result) post :=
  (ensures_bind _ _ _).trans (ensures_ask_of_free .screenSize fun _ => trivial)

@[simp] theorem ensures_currentIndex {post : σ → Nat → Prop} :
    Ensures P owner currentIndex s post ↔
      P.permits s .currentIndex ∧ ∀ index : Nat, (∀ i, owner = some i → index = i.counter) →
        post (P.answered s .currentIndex index) index :=
  Iff.rfl

@[simp] theorem ensures_source {post : σ → List String → Prop} :
    Ensures P owner source s post ↔
      P.permits s .source ∧ ∀ lines : List String, (∀ i, owner = some i → lines = i.source) →
        post (P.answered s .source lines) lines :=
  Iff.rfl

@[simp] theorem ensures_instanceName {post : σ → Option String → Prop} :
    Ensures P owner instanceName s post ↔
      P.permits s .instanceName ∧
        post (P.answered s .instanceName (owner.map (·.name))) (owner.map (·.name)) :=
  and_congr_right fun _ => ⟨fun h => h _ rfl, fun h _ same => by rw [same]; exact h⟩

@[simp] theorem ensures_evaluate (line : String) (quiet : Bool) {post : σ → Evaluation → Prop} :
    Ensures P owner (evaluate line quiet) s post ↔
      P.nests s line quiet ∧ ∀ e, post (P.returned s e) e :=
  Iff.rfl

@[simp] theorem ensures_sleep (duration : Duration) {post : σ → Unit → Prop} :
    Ensures P owner (sleep duration) s post ↔ post s () :=
  Iff.rfl

@[simp] theorem ensures_runScripts (names : List String) {post : σ → Unit → Prop} :
    Ensures P owner (runScripts names) s post ↔
      ∀ result, Ensures P owner (ofExcept .start result) s post :=
  ensures_bind _ _ _

@[simp] theorem ensures_readInput {post : σ → Option String → Prop} :
    Ensures P owner readInput s post ↔ ∀ line, post s line :=
  Iff.rfl

end Step

end LineScript
