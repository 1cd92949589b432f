import LineScript.Proofs.Line.Effects
import LineScript.Proofs.Line.Reading
import LineScript.Proofs.Store.Resaved
import LineScript.Proofs.Workspace.Removal
import LineScript.Proofs.Workspace.Start
import LineScript.Script.Tick

/-!
# Lines do not notice how scripts are saved

Of the texts in the store nothing is used but their lines, and only where scripts are started. So a
line does the same, and leaves the same behind, whichever line endings the scripts in the store have
(`evaluate_overlooks`), and so does a tick (`tick_overlooks`), whatever happens while they wait.
-/

namespace LineScript

/-! ## Starts -/

/-- The workspace with another store. -/
def Workspace.restock (ws : Workspace) (store : Store) : Workspace :=
  { ws with store }

theorem Instance.ofText_congr {text text' : String}
    (same : Text.sourceLines text = Text.sourceLines text') (name : String)
    (generation batch : Nat) :
    ofText name text generation batch = ofText name text' generation batch := by
  simp only [ofText, same]

/-- The same names with texts of the same lines. -/
abbrev SameScripts : List (String × String) → List (String × String) → Prop :=
  List.Forall₂ fun p q => p.1 = q.1 ∧ Text.sourceLines p.2 = Text.sourceLines q.2

theorem mapIdx_congr_of_forall₂ {α β γ : Type} {related : α → β → Prop} {f : Nat → α → γ}
    {g : Nat → β → γ} (same : ∀ i x y, related x y → f i x = g i y) {xs : List α} {ys : List β}
    (alike : List.Forall₂ related xs ys) : xs.mapIdx f = ys.mapIdx g := by
  induction alike generalizing f g with
  | nil => rfl
  | cons here _ ih =>
    rw [List.mapIdx_cons, List.mapIdx_cons, same 0 _ _ here, ih fun i => same (i + 1)]

theorem Scheduler.enroll_congr (s : Scheduler) {scripts scripts' : List (String × String)}
    (alike : SameScripts scripts scripts') : s.enroll scripts = s.enroll scripts' := by
  have instances : ∀ generation batch,
      (scripts.mapIdx fun i script =>
        Instance.ofText script.1 script.2 (generation + i) batch) =
      scripts'.mapIdx fun i script =>
        Instance.ofText script.1 script.2 (generation + i) batch := by
    intro generation batch
    refine mapIdx_congr_of_forall₂ (fun i p q same => ?_) alike
    rw [same.1, Instance.ofText_congr same.2]
  have names := map_fst_eq (alike.imp fun _ _ same => same.1)
  have none : scripts.isEmpty = scripts'.isEmpty := by
    cases alike <;> rfl
  simp only [enroll, names, none, alike.length_eq, instances]

namespace Workspace

section

variable {s s' : Store} (resaved : s.Resaved s')
include resaved

/-- A script is refused by both stores for one reason, or loaded from both with the same lines. -/
theorem load_cases (name : String) :
    (∃ e, s.load name = .error e ∧ s'.load name = .error e) ∨
      (s.load name = .ok none ∧ s'.load name = .ok none) ∨
      ∃ text text', s.load name = .ok (some text) ∧ s'.load name = .ok (some text') ∧
        Text.sourceLines text = Text.sourceLines text' := by
  have same := resaved.lines_eq name
  unfold Store.lines at same
  cases here : s.load name with
  | error e =>
    cases there : s'.load name with
    | error e' =>
      rw [here, there] at same
      cases same
      exact .inl ⟨e, rfl, rfl⟩
    | ok text' =>
      rw [here, there] at same
      cases same
  | ok text =>
    cases there : s'.load name with
    | error e' =>
      rw [here, there] at same
      cases same
    | ok text' =>
      rw [here, there] at same
      cases text with
      | none =>
        cases text' with
        | none => exact .inr (.inl ⟨rfl, rfl⟩)
        | some text' => cases same
      | some text =>
        cases text' with
        | none => cases same
        | some text' => exact .inr (.inr ⟨text, text', rfl, rfl, by simpa [Except.map] using same⟩)

theorem loadScripts_resaved (names : List String) :
    (∃ e, loadScripts s names = .error e ∧ loadScripts s' names = .error e) ∨
      ∃ scripts scripts', loadScripts s names = .ok scripts ∧ loadScripts s' names = .ok scripts' ∧
        SameScripts scripts scripts' := by
  induction names with
  | nil => exact .inr ⟨[], [], rfl, rfl, .nil⟩
  | cons name rest ih =>
    rw [loadScripts_cons, loadScripts_cons]
    rcases load_cases resaved name with ⟨e, here, there⟩ | ⟨here, there⟩ | ⟨a, b, here, there, same⟩
    · rw [here, there]
      exact .inl ⟨_, rfl, rfl⟩
    · rw [here, there]
      exact .inl ⟨_, rfl, rfl⟩
    · rw [here, there]
      rcases ih with ⟨e, failed, failed'⟩ | ⟨scripts, scripts', loaded, loaded', alike⟩
      · rw [failed, failed']
        exact .inl ⟨e, rfl, rfl⟩
      · rw [loaded, loaded']
        exact .inr ⟨_, _, rfl, rfl, .cons ⟨rfl, same⟩ alike⟩

end

theorem enlist_restock (ws : Workspace) (store : Store) {scripts scripts' : List (String × String)}
    (alike : SameScripts scripts scripts') :
    (ws.restock store).enlist scripts' =
      (ws.enlist scripts).map fun result => (result.1, result.2.restock store) := by
  simp only [enlist, show (ws.restock store).scheduler = ws.scheduler from rfl,
    ws.scheduler.enroll_congr alike]
  cases ws.scheduler.enroll scripts' <;> rfl

/-- A start comes to the same with scripts that were saved anew. -/
theorem startBatch_restock {ws : Workspace} {store : Store} (resaved : ws.store.Resaved store)
    (invoker : Option String) (names : List String) :
    (ws.restock store).startBatch invoker names =
      (ws.startBatch invoker names).map fun result => (result.1, result.2.restock store) := by
  by_cases driven : ws.driven = true
  · have driven' : (ws.restock store).driven = true := driven
    rw [startBatch_eq driven, startBatch_eq driven']
    show (ws.scheduler.check invoker names).bind _ = _
    cases ws.scheduler.check invoker names with
    | error e => rfl
    | ok _ =>
      show (loadScripts store names).bind _ = ((loadScripts ws.store names).bind _).map _
      rcases loadScripts_resaved resaved names with
        ⟨e, failed, failed'⟩ | ⟨scripts, scripts', loaded, loaded', alike⟩
      · rw [failed, failed']
        rfl
      · rw [loaded, loaded']
        exact enlist_restock ws store alike
  · have idle : ws.driven = false := by simpa using driven
    have idle' : (ws.restock store).driven = false := idle
    simp only [startBatch, idle, idle']
    rfl

theorem finish_restock (ws : Workspace) (store : Store) (i : Instance) :
    (ws.restock store).finish i = (ws.finish i).restock store := by
  rw [finish_eq, finish_eq]
  rfl

theorem stop_restock (ws : Workspace) (store : Store) (target : StopTarget) :
    (ws.restock store).stop target =
      ((ws.stop target).1, (ws.stop target).2.restock store) := by
  rw [stop_eq, stop_eq]
  rfl

theorem endRequest_restock (ws : Workspace) (store : Store) :
    (ws.restock store).endRequest = ws.endRequest.restock store := by
  simp only [endRequest, show (ws.restock store).busy = ws.busy from rfl]
  split <;> rfl

theorem endRequest_store (ws : Workspace) : ws.endRequest.store = ws.store := by
  simp only [endRequest]
  split <;> rfl

theorem startBatch_store {ws ws' : Workspace} {invoker : Option String} {names : List String}
    {started : Started} (ok : ws.startBatch invoker names = .ok (started, ws')) :
    ws'.store = ws.store := by
  obtain ⟨-, scripts, e, -, -, -, rfl⟩ := startBatch_ok ok
  rfl

end Workspace

/-! ## Answers -/

namespace Context

theorem assignGlobal_restock (ctx : Context) (ws : Workspace) (store : Store) (name : String)
    (value : Value) :
    ctx.assignGlobal (ws.restock store) name value =
      ((ctx.assignGlobal ws name value).1, (ctx.assignGlobal ws name value).2.1,
        (ctx.assignGlobal ws name value).2.2.restock store) := by
  simp only [assignGlobal, show (ws.restock store).globals = ws.globals from rfl]
  cases ws.globals.assign name value <;> rfl

theorem assign_restock (ctx : Context) (ws : Workspace) (store : Store) (name : String)
    (value : Value) :
    ctx.assign (ws.restock store) name value =
      ((ctx.assign ws name value).1, (ctx.assign ws name value).2.1,
        (ctx.assign ws name value).2.2.restock store) := by
  cases owner : ctx.owner with
  | none =>
    simp only [assign, owner, show (ws.restock store).globals = ws.globals from rfl]
    cases ws.globals.assign name value <;> rfl
  | some i =>
    simp only [assign, owner]
    cases i.locals.assign name value <;> rfl

/-- The store has no part in an answer. -/
theorem answer_restock (ctx : Context) (ws : Workspace) (store : Store) (r : Request) :
    ctx.answer (ws.restock store) r =
      ((ctx.answer ws r).1, (ctx.answer ws r).2.1, (ctx.answer ws r).2.2.restock store) := by
  cases r with
  | assign name value => exact ctx.assign_restock ws store name value
  | assignGlobal name value => exact ctx.assignGlobal_restock ws store name value
  | update name value =>
    simp only [answer, update, show (ws.restock store).globals = ws.globals from rfl]
    split
    · exact ctx.assignGlobal_restock ws store name value
    · exact ctx.assign_restock ws store name value
  | remove name =>
    cases owner : ctx.owner with
    | none =>
      simp only [answer, remove, owner]
      rfl
    | some i => simp only [answer, remove, owner]
  | setTypingSpeed speed =>
    cases owner : ctx.owner with
    | none =>
      simp only [answer, setSettings, owner]
      rfl
    | some i => simp only [answer, setSettings, owner]
  | _ => rfl

theorem answer_store (ctx : Context) (ws : Workspace) (r : Request) :
    (ctx.answer ws r).2.2.store = ws.store := by
  obtain ⟨globals, terminal, device, entropy, eq⟩ := ctx.answer_workspace ws r
  rw [eq]

end Context

/-! ## Waits -/

namespace Wait

variable (wait : Wait) (ws : Workspace) (store : Store)

theorem isOver_restock : wait.isOver (ws.restock store) = wait.isOver ws := by
  cases wait <;> rfl

theorem remain_restock : wait.remain (ws.restock store) = (wait.remain ws).restock store := by
  cases wait <;> rfl

theorem abandon_restock : wait.abandon (ws.restock store) = (wait.abandon ws).restock store := by
  cases wait <;> rfl

theorem remain_store : (wait.remain ws).store = ws.store := by
  cases wait <;> rfl

theorem abandon_store : (wait.abandon ws).store = ws.store := by
  cases wait <;> rfl

end Wait

/-! ## Runs -/

namespace Run

variable {α β : Type}

/-- The run with another store in the workspace that it leaves. -/
def restock (store : Store) : Run α → Run α
  | .done value ws => .done value (ws.restock store)
  | .await wait ws next => .await wait (ws.restock store) next
  | .endless => .endless

/-- The run keeps the store, and goes on alike with the same scripts saved anew, wait after wait. -/
inductive Steady : Store → Run α → Prop where
  | done {value : α} {ws : Workspace} : Steady ws.store (.done value ws)
  | await {wait : Wait} {ws : Workspace} {next : Workspace → Run α}
      (alike : ∀ later store, later.store.Resaved store →
        next (later.restock store) = (next later).restock store)
      (rest : ∀ later, Steady later.store (next later)) : Steady ws.store (.await wait ws next)
  | endless {store : Store} : Steady store .endless

/-- What goes on from a workspace does so alike with the same scripts saved anew. -/
structure Overlooks (f : Workspace → Run α) : Prop where
  alike : ∀ ws store, ws.store.Resaved store → f (ws.restock store) = (f ws).restock store
  steady : ∀ ws, (f ws).Steady ws.store

section

variable {run : Run α} {ws : Workspace} {store other : Store}

theorem Steady.of_done {value : α} (kept : ws.store = store) :
    Steady store (.done value ws : Run α) := by
  rw [← kept]
  exact .done

theorem Overlooks.done {g : Workspace → α} {h : Workspace → Workspace}
    (values : ∀ ws store, g (ws.restock store) = g ws)
    (lasts : ∀ ws store, h (ws.restock store) = (h ws).restock store)
    (kept : ∀ ws, (h ws).store = ws.store) :
    Overlooks fun ws => .done (g ws) (h ws) where
  alike ws store _ := by rw [values, lasts, restock]
  steady ws := .of_done (kept ws)

/-- Something may come before that does not use the store. -/
theorem Overlooks.after {f : Workspace → Run α} {h : Workspace → Workspace}
    (overlooks : Overlooks f) (firsts : ∀ ws store, h (ws.restock store) = (h ws).restock store)
    (kept : ∀ ws, (h ws).store = ws.store) : Overlooks fun ws => f (h ws) where
  alike ws store resaved := by
    rw [firsts]
    exact overlooks.alike _ _ ((kept ws).symm ▸ resaved)
  steady ws := kept ws ▸ overlooks.steady (h ws)

theorem Steady.bind_restock {f : α → Workspace → Run β} (steady : Steady store run)
    (overlooks : ∀ value, Overlooks (f value)) (resaved : store.Resaved other) :
    (run.restock other).bind f = (run.bind f).restock other := by
  cases steady with
  | done => exact (overlooks _).alike _ _ resaved
  | await => rfl
  | endless => rfl

theorem Steady.bind {f : α → Workspace → Run β} (steady : Steady store run)
    (overlooks : ∀ value, Overlooks (f value)) : Steady store (run.bind f) := by
  induction steady with
  | done => exact (overlooks _).steady _
  | await alike rest ih =>
    -- Whatever the workspace is after the wait, the first run goes on alike and so does the second.
    refine .await (fun later store resaved => ?_) ih
    show (_ : Run α).bind f = _
    rw [alike later store resaved]
    exact (rest later).bind_restock overlooks resaved
  | endless => exact .endless

theorem Overlooks.bind {first : Workspace → Run α} {f : α → Workspace → Run β}
    (here : Overlooks first) (rest : ∀ value, Overlooks (f value)) :
    Overlooks fun ws => (first ws).bind f where
  alike ws store resaved := by
    rw [here.alike ws store resaved]
    exact (here.steady ws).bind_restock rest resaved
  steady ws := (here.steady ws).bind rest

theorem waitFor_restock {next : Workspace → Run α} (overlooks : Overlooks next) (wait : Wait)
    (resaved : ws.store.Resaved other) :
    waitFor wait (ws.restock other) next = (waitFor wait ws next).restock other := by
  unfold waitFor
  rw [wait.isOver_restock]
  split
  · exact overlooks.alike ws other resaved
  · rfl

theorem Steady.waitFor {next : Workspace → Run α} (overlooks : Overlooks next) (wait : Wait)
    (kept : ws.store = store) : Steady store (Run.waitFor wait ws next) := by
  rw [← kept]
  unfold Run.waitFor
  split
  · exact overlooks.steady ws
  · exact .await overlooks.alike overlooks.steady

end

end Run

/-! ## Lines -/

namespace Line

open Run (Overlooks Steady)

/-- An action does not notice how scripts are saved if the lines that it evaluates do not. -/
theorem perform_overlooks {α : Type} {nested : Evaluator}
    (overlooks : ∀ mode line owner transcript, Overlooks (nested mode line owner transcript))
    (action : Action α) (ctx : Context) : Overlooks (perform nested action ctx) := by
  induction action generalizing ctx with
  | done value => exact .done (fun _ _ => rfl) (fun _ _ => rfl) fun _ => rfl
  | ask r next ih =>
    refine ⟨fun ws store resaved => ?_, fun ws => ?_⟩
    · simp only [perform, ctx.answer_restock ws store r]
      exact (ih _ _).alike _ _ ((ctx.answer_store ws r).symm ▸ resaved)
    · simp only [perform]
      rw [← ctx.answer_store ws r]
      exact (ih _ _).steady _
  | evaluate line quiet next ih =>
    exact (overlooks _ line ctx.owner ctx.transcript).bind fun e => ih _ _
  | sleep duration next ih =>
    exact ⟨fun ws store resaved => Run.waitFor_restock (ih ctx) _ resaved,
      fun ws => .waitFor (ih ctx) _ rfl⟩
  | runScripts names next ih =>
    refine ⟨fun ws store resaved => ?_, fun ws => ?_⟩
    · simp only [perform]
      rw [Workspace.startBatch_restock resaved]
      cases started : ws.startBatch (ctx.owner.map (·.name)) names with
      | error e => exact (ih _ ctx).alike ws store resaved
      | ok result =>
        refine Run.waitFor_restock (ih _ ctx) _ ?_
        rw [Workspace.startBatch_store started]
        exact resaved
    · simp only [perform]
      split
      · exact (ih _ ctx).steady ws
      · rename_i started
        exact .waitFor (ih _ ctx) _ (Workspace.startBatch_store started)
  | readInput next ih =>
    have reading : ∀ ticket, Overlooks fun ws =>
        perform nested (next (ws.readInput ticket).1) ctx (ws.readInput ticket).2 := by
      intro ticket
      refine ⟨fun ws store resaved => ?_, fun ws => (ih _ ctx).steady (ws.readInput ticket).2⟩
      exact (ih (ws.readInput ticket).1 ctx).alike (ws.readInput ticket).2 store resaved
    refine ⟨fun ws store resaved => ?_, fun ws => .waitFor (reading _) _ rfl⟩
    have kept : ws.askInput.1.store.Resaved store := resaved
    exact Run.waitFor_restock (reading _) _ kept

/-- No line notices how scripts are saved, by induction on how deep lines may be nested. -/
theorem evaluate_overlooks (depth : Nat) (mode : Mode) (line : String) (owner : Option Instance)
    (transcript : List Message) : Overlooks (evaluate depth mode line owner transcript) := by
  induction depth generalizing mode line owner transcript with
  | zero => exact ⟨fun _ _ _ => rfl, fun _ => .endless⟩
  | succ depth ih =>
    let ctx : Context := { line, mode, owner, transcript }
    have performed : ∀ command args, Overlooks fun ws =>
        (perform (evaluate depth) (Command.run command args).run ctx ws).bind fun result ws =>
          .done (leave command.schema ws.config.errorColor result) ws := by
      intro command args
      refine (perform_overlooks ih _ ctx).bind fun result => ?_
      exact .done (fun _ _ => rfl) (fun _ _ => rfl) fun _ => rfl
    refine ⟨fun ws store resaved => ?_, fun ws => ?_⟩
    · rw [evaluate_succ, evaluate_succ, show (ws.restock store).registry = ws.registry from rfl]
      cases read ws.registry line with
      | idle => rfl
      | unknown name => rfl
      | runs command args => exact (performed command args).alike ws store resaved
    · rw [evaluate_succ]
      cases read ws.registry line with
      | idle => exact .done
      | unknown name => exact .done
      | runs command args => exact (performed command args).steady ws

theorem runBare_overlooks (line : String) : Overlooks (runBare line) := by
  unfold runBare
  -- The bound is a large number, which must not be unfolded.
  generalize depthBound line 0 = depth
  have evaluated := evaluate_overlooks depth {} line none []
  refine evaluated.bind fun e => ?_
  exact .done (fun _ _ => rfl) (fun _ _ => rfl) fun _ => rfl

/-- Neither does a line that the host runs. -/
theorem runRequest_overlooks (line : String) : Overlooks (runRequest line) := by
  have bare := runBare_overlooks line
  unfold runRequest
  generalize runBare line = run at bare ⊢
  have begun := bare.after (h := Workspace.beginRequest) (fun _ _ => rfl) fun _ => rfl
  refine begun.bind fun evaluation => ?_
  exact .done (fun _ _ => rfl) Workspace.endRequest_restock Workspace.endRequest_store

end Line

namespace Instance

open Run (Overlooks)

theorem conclude_restock (i : Instance) (e : Line.Ended) (ws : Workspace) (store : Store) :
    i.conclude e (ws.restock store) =
      ((i.conclude e ws).1, (i.conclude e ws).2.restock store) := by
  simp only [conclude, show ∀ j, (ws.restock store).isCurrent j = ws.isCurrent j from fun _ => rfl]
  split <;> rfl

theorem conclude_store (i : Instance) (e : Line.Ended) (ws : Workspace) :
    (i.conclude e ws).2.store = ws.store := by
  simp only [conclude]
  split <;> rfl

/-- A tick does not notice how scripts are saved. -/
theorem tick_overlooks (i : Instance) : Overlooks i.tick := by
  unfold tick
  cases i.source[i.counter]? with
  | none => exact .done (fun _ _ => rfl) (fun _ _ => rfl) fun _ => rfl
  | some line =>
    dsimp only
    generalize Line.depthBound line i.extent = depth
    have evaluated := Line.evaluate_overlooks depth {} line (some i) []
    refine evaluated.bind fun e => ?_
    exact .done (fun ws store => by rw [i.conclude_restock e ws store])
      (fun ws store => by rw [i.conclude_restock e ws store]) fun ws => i.conclude_store e ws

end Instance

end LineScript
