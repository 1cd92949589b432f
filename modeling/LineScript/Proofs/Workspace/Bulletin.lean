import LineScript.Kernel
import LineScript.Proofs.Command.Catalogue
import LineScript.Proofs.Line.Attendance
import LineScript.Proofs.Scheduler.History
import LineScript.Proofs.Workspace.Removal

/-!
# The published list of scripts

A front end knows of the running scripts only what it is told: each message about them holds the
whole list. A `Bulletin` is a workspace together with the ticks under way on it and with all that
was ever drained from its bus, so all that was ever pushed is at hand. Batches, ticks, ends, stops
and drains come in any order.

* `Change` is all that one of these events can do to the workspace. In each case the list of scripts
  is told once if it has changed, and not at all otherwise (`Change.tells`).
* The last list that was pushed is therefore always the list of the running scripts.
* The end of a batch comes after that list is told, at every `Workspace.Stage` of a removal.
-/

namespace LineScript

/-- The lists of running scripts that some messages tell, in order. -/
def Message.lists (ms : List Message) : List (List String) :=
  ms.filterMap fun
    | .scripts names => some names
    | _ => none

@[simp] theorem Message.lists_append (a b : List Message) :
    lists (a ++ b) = lists a ++ lists b :=
  List.filterMap_append

theorem Message.lists_eq_nil {ms : List Message} (other : ∀ m ∈ ms, ∀ names, m ≠ .scripts names) :
    lists ms = [] := by
  refine List.filterMap_eq_nil_iff.mpr fun m mem => ?_
  cases m with
  | scripts names => exact absurd rfl (other _ mem names)
  | _ => rfl

theorem Message.lists_speech {ms : List Message} (speech : ∀ m ∈ ms, m.isSpeech = true) :
    lists ms = [] := by
  refine lists_eq_nil fun m mem names same => ?_
  have := speech m mem
  simp [same, isSpeech] at this

namespace Workspace

variable {ws ws' : Workspace} {gone : List Active}

/-! ## What an event does -/

/-- The instances of a workspace whose inbox nobody empties, and its scheduler. -/
def history (ws : Workspace) : Scheduler.History :=
  ⟨ws.scheduler, ws.inbox⟩

/-- What can happen to a workspace at once, with the entries that leave: it stays calm and
something is said, a batch starts, or members leave. -/
inductive Change (ws : Workspace) : List Active → Workspace → Prop where
  | speaks {before : Workspace} {said : List Message} (calm : Line.Calm ws before)
      (speech : ∀ m ∈ said, m.isSpeech = true) : Change ws [] (before.publish said)
  | starts {before : Workspace} {scripts : List (String × String)} {e : Scheduler.Enrolment}
      (calm : Line.Calm ws before) (distinct : (scripts.map Prod.fst).Nodup)
      (new : before.scheduler.Enrolled scripts e) :
      Change ws []
        { before.publish e.messages with
          scheduler := e.scheduler
          inbox := before.inbox ++ e.instances }
  | removes {gone : List Active} (sub : gone.Sublist ws.scheduler.active) (some : gone ≠ []) :
      Change ws gone (ws.remove gone)

theorem Change.of_calm (calm : Line.Calm ws ws') : ws.Change [] ws' := by
  have said : ws.Change [] (ws'.publish []) := .speaks calm (by simp)
  rwa [publish_nil] at said

theorem calm_lists {calmed : Workspace} (calm : Line.Calm ws calmed) :
    calmed.scheduler.active = ws.scheduler.active ∧
      ∃ said, calmed.bus.pending.toList = ws.bus.pending.toList ++ said ∧
        Message.lists said = [] := by
  obtain ⟨⟨n, scheduler⟩, -, said, told, inputs⟩ := calm
  refine ⟨by rw [scheduler], said, told, Message.lists_eq_nil fun m mem names same => ?_⟩
  obtain ⟨enabled, rfl⟩ := inputs m mem
  cases same

/-- Who leaves was there, so the active set is not what it was. -/
theorem without_active_ne {s : Scheduler} (sub : gone.Sublist s.active) (some : gone ≠ []) :
    (s.without gone).active ≠ s.active := by
  obtain ⟨e, mem⟩ := List.exists_mem_of_ne_nil gone some
  intro same
  have left : e ∈ (s.without gone).active := same ▸ sub.subset mem
  exact (Scheduler.mem_without.mp left).2 e mem rfl

/-- The list of the running scripts is told once if it has changed, and otherwise not at all. -/
theorem Change.tells (change : ws.Change gone ws') :
    ∃ said, ws'.bus.pending.toList = ws.bus.pending.toList ++ said ∧
      Message.lists said =
        if ws'.scheduler.active = ws.scheduler.active then [] else [ws'.scheduler.names] := by
  cases change with
  | @speaks before said calm speech =>
    obtain ⟨active, inputs, told, none⟩ := calm_lists calm
    refine ⟨inputs ++ said, by simp [publish, told], ?_⟩
    rw [if_pos (by exact active), Message.lists_append, none, Message.lists_speech speech]
    rfl
  | @starts before scripts e calm distinct new =>
    obtain ⟨active, inputs, told, none⟩ := calm_lists calm
    refine ⟨inputs ++ e.messages, by simp [publish, told], ?_⟩
    rw [Message.lists_append, none, List.nil_append, new.messages]
    by_cases empty : scripts = []
    · subst empty
      rw [if_pos rfl, if_pos (by simpa using new.active.trans (by simp [active]))]
      rfl
    · have grown : e.scheduler.active ≠ ws.scheduler.active := by
        rw [new.active, active]
        intro same
        have := congrArg List.length same
        simp only [List.length_append, List.length_map, Scheduler.length_newInstances] at this
        exact empty (List.length_eq_zero_iff.mp (by omega))
      rw [if_neg empty, if_neg grown]
      rfl
  | removes sub some =>
    rw [remove_eq]
    refine ⟨[(ws.scheduler.without gone).announcement], by simp [publish], ?_⟩
    rw [if_neg (without_active_ne sub some)]
    rfl

theorem sound_of_calm (calm : Line.Calm ws ws') (sound : ws.history.Sound) : ws'.history.Sound := by
  obtain ⟨⟨n, scheduler⟩, inbox, -⟩ := calm
  unfold history at sound ⊢
  rw [scheduler, inbox]
  exact
    { scheduler :=
        { names_nodup := sound.scheduler.names_nodup
          ascending := sound.scheduler.ascending
          generation_lt := sound.scheduler.generation_lt
          accounts := sound.scheduler.accounts
          batch_pos := sound.scheduler.batch_pos
          batch_le := fun e mem =>
            Nat.le_trans (sound.scheduler.batch_le e mem) (Nat.le_add_right _ _) }
      knows := fun i mem => ⟨(sound.knows i mem).generation_lt, (sound.knows i mem).entry_eq⟩
      ascending := sound.ascending
      batch_le := fun i mem => Nat.le_trans (sound.batch_le i mem) (Nat.le_add_right _ _) }

theorem Change.sound (change : ws.Change gone ws') (sound : ws.history.Sound) :
    ws'.history.Sound := by
  cases change with
  | @speaks before said calm _ =>
    show before.history.Sound
    exact sound_of_calm calm sound
  | @starts before scripts e calm distinct new =>
    have started := (sound_of_calm calm sound).enrolled distinct new
    show Scheduler.History.Sound ⟨e.scheduler, before.inbox ++ e.instances⟩
    rwa [new.instances]
  | removes sub _ =>
    rw [remove_eq]
    exact sound.without sub

/-- The active set keeps to the order in which instances were handed out. -/
theorem Change.active_sublist (change : ws.Change gone ws')
    (listed : ws.scheduler.active.Sublist (ws.inbox.map Instance.entry)) :
    ws'.scheduler.active.Sublist (ws'.inbox.map Instance.entry) := by
  cases change with
  | @speaks before said calm _ =>
    show before.scheduler.active.Sublist (before.inbox.map Instance.entry)
    rwa [(calm_lists calm).1, calm.inbox]
  | @starts before scripts e calm distinct new =>
    show e.scheduler.active.Sublist ((before.inbox ++ e.instances).map Instance.entry)
    rw [new.active, new.instances, List.map_append, (calm_lists calm).1, calm.inbox]
    exact listed.append_right _
  | removes _ _ => exact List.filter_sublist.trans listed

/-- If nobody leaves, all stay. -/
theorem Change.active_prefix (change : ws.Change [] ws') :
    ws.scheduler.active <+: ws'.scheduler.active := by
  cases change with
  | @speaks before said calm _ =>
    show ws.scheduler.active <+: before.scheduler.active
    rw [(calm_lists calm).1]
  | @starts before scripts e calm distinct new =>
    show ws.scheduler.active <+: e.scheduler.active
    rw [new.active, (calm_lists calm).1]
    exact List.prefix_append _ _
  | removes _ some => exact absurd rfl some

/-- A batch that was there becomes complete when its last member leaves. -/
theorem Change.last_member_left (change : ws.Change gone ws') (sound : ws.history.Sound) {id : Nat}
    (started : id ≤ ws.scheduler.lastBatch) (before : ws.scheduler.isComplete id = false)
    (after : ws'.scheduler.isComplete id = true) :
    ws.scheduler.HasMember id ∧ ¬ ws'.scheduler.HasMember id ∧ gone ≠ [] := by
  obtain ⟨positive, -, none⟩ :=
    ((change.sound sound).scheduler.isComplete_iff id).mp after
  have member : ws.scheduler.HasMember id := by
    by_contra free
    have complete := (sound.scheduler.isComplete_iff id).mpr ⟨positive, started, free⟩
    exact absurd (before.symm.trans complete) (by simp)
  refine ⟨member, none, ?_⟩
  rintro rfl
  obtain ⟨e, mem, same⟩ := member
  exact none ⟨e, change.active_prefix.subset mem, same⟩

theorem Change.eq_remove (change : ws.Change gone ws') (some : gone ≠ []) :
    ws' = ws.remove gone := by
  cases change with
  | removes _ _ => rfl
  | _ => exact absurd rfl some

end Workspace

/-! ## Any number of events -/

structure Bulletin where
  workspace : Workspace
  /-- The ticks that wait, and how they go on. -/
  ticking : List (Suspended Ticked) := []
  /-- What the front end has drained so far. -/
  taken : List Message := []

namespace Bulletin

inductive Event where
  /-- Register a batch of scripts with their texts. -/
  | enlist (scripts : List (String × String))
  /-- An instance begins a tick. -/
  | tick (i : Instance)
  /-- A tick goes on, if its wait is over. -/
  | resume (index : Nat)
  /-- An instance has ended by itself. -/
  | finish (i : Instance)
  | stop (target : StopTarget)
  | drain
  | pass (time : Nat)
  | provideInput (line : String)

/-- Where a tick has come to. -/
def settle (b : Bulletin) : Run Ticked → Bulletin
  | .done _ ws => { b with workspace := ws }
  | .await wait ws next => { b with workspace := ws, ticking := b.ticking ++ [⟨wait, next⟩] }
  | .endless => b

def next (b : Bulletin) : Event → Bulletin
  | .enlist scripts =>
    match b.workspace.enlist scripts with
    | .ok (_, ws) => { b with workspace := ws }
    | .error _ => b
  | .tick i => b.settle (i.tick b.workspace)
  | .resume index =>
    match b.ticking[index]? with
    | none => b
    | some rest =>
      if rest.wait.isOver b.workspace then
        { b with ticking := b.ticking.eraseIdx index }.settle (rest.next b.workspace)
      else b
  | .finish i => { b with workspace := b.workspace.finish i }
  | .stop target => { b with workspace := (b.workspace.stop target).2 }
  | .drain =>
    { b with
      workspace := { b.workspace with bus := b.workspace.bus.drain.2 }
      taken := b.taken ++ b.workspace.bus.drain.1 }
  | .pass time => { b with workspace := { b.workspace with now := time } }
  | .provideInput line => { b with workspace := b.workspace.provideInput line }

/-- The event can happen: a batch has distinct names, and who ticks or ends was handed out, however
long ago. Nobody takes instances out of the inbox here, so all of them are there; in the meantime
they may have moved on through their lines. -/
def Allows (b : Bulletin) : Event → Prop
  | .enlist scripts => (scripts.map Prod.fst).Nodup
  | .tick i => ∃ j ∈ b.workspace.inbox, i.entry = j.entry
  | .finish i => ∃ j ∈ b.workspace.inbox, i.entry = j.entry
  | _ => True

/-- Nothing has happened yet. -/
structure Fresh (b : Bulletin) : Prop where
  scheduler : b.workspace.scheduler = {}
  inbox : b.workspace.inbox = []
  bus : b.workspace.bus = {}
  ticking : b.ticking = []
  taken : b.taken = []

inductive Reachable : Bulletin → Prop where
  | fresh {b : Bulletin} (new : b.Fresh) : Reachable b
  | next {b : Bulletin} {event : Event} (reach : Reachable b) (allowed : b.Allows event) :
      Reachable (b.next event)

/-- All messages that were ever pushed. -/
def pushed (b : Bulletin) : List Message :=
  b.taken ++ b.workspace.bus.pending.toList

/-- The running scripts as the front end knows them, once it has drained the bus. -/
def shown (b : Bulletin) : List String :=
  (Message.lists b.pushed).getLast?.getD []

/-- The entries that an event takes out of the active set. -/
def leaving (b : Bulletin) : Event → List Active
  | .finish i => b.workspace.history.leaving (.finish i)
  | .stop target => b.workspace.history.leaving (.stop target)
  | _ => []

structure Sound (b : Bulletin) : Prop where
  history : b.workspace.history.Sound
  listed : b.workspace.scheduler.active.Sublist (b.workspace.inbox.map Instance.entry)
  ticks : ∀ rest ∈ b.ticking, ∃ i : Instance, ∀ ws, i.Attends ws (rest.next ws)
  shown : b.shown = b.workspace.scheduler.names

variable {b : Bulletin} {event : Event}

/-! ### One event -/

/-- A tick does one of the things that can happen, up to its next wait or to its end. -/
theorem settle_change {i : Instance} {run : Run Ticked} (attends : i.Attends b.workspace run) :
    b.workspace.Change [] (b.settle run).workspace := by
  cases attends with
  | done ended =>
    obtain ⟨before, said, still, speech, rfl, -⟩ := ended
    exact .speaks (Line.Stays.calm still) speech
  | await pauses _ =>
    cases pauses with
    | rests still _ => exact .of_calm (Line.Stays.calm still)
    | starts still ok =>
      obtain ⟨startable, scripts, e, names, new, -, rfl⟩ := Workspace.startBatch_ok ok
      exact .starts (Line.Stays.calm still) (names ▸ startable.distinct) new
  | endless => exact .of_calm (.refl _)

theorem settle_ticks {i : Instance} {run : Run Ticked} {ws : Workspace} (attends : i.Attends ws run)
    (others : ∀ rest ∈ b.ticking, ∃ i : Instance, ∀ ws, i.Attends ws (rest.next ws)) :
    ∀ rest ∈ (b.settle run).ticking, ∃ i : Instance, ∀ ws, i.Attends ws (rest.next ws) := by
  cases attends with
  | done _ => exact others
  | await _ goesOn =>
    intro rest mem
    rcases List.mem_append.mp mem with old | new
    · exact others rest old
    · rw [List.mem_singleton.mp new]
      exact ⟨i, goesOn⟩
  | endless => exact others

@[simp] theorem settle_taken (b : Bulletin) (run : Run Ticked) :
    (b.settle run).taken = b.taken := by
  cases run <;> rfl

theorem leaving_finish (b : Bulletin) (i : Instance) :
    b.leaving (.finish i) = if b.workspace.isCurrent i then [i.entry] else [] := rfl

theorem leaving_sublist (sound : b.Sound) {i : Instance} (allowed : b.Allows (.finish i)) :
    (b.leaving (.finish i)).Sublist b.workspace.scheduler.active := by
  show (b.workspace.history.leaving (.finish i)).Sublist b.workspace.history.scheduler.active
  exact Scheduler.History.leaving_sublist sound.history allowed

/-- Any event but a drain does one of the things that can happen. -/
theorem next_change (sound : b.Sound) (allowed : b.Allows event) (other : event ≠ .drain) :
    b.workspace.Change (b.leaving event) (b.next event).workspace ∧
      (b.next event).taken = b.taken := by
  have same : b.workspace.Change [] b.workspace := .of_calm (.refl _)
  cases event with
  | enlist scripts =>
    simp only [next]
    split
    · rename_i started ws ok
      obtain ⟨e, new, -, rfl⟩ := Workspace.enlist_ok allowed ok
      exact ⟨.starts (.refl _) allowed new, rfl⟩
    · exact ⟨same, rfl⟩
  | tick i => exact ⟨settle_change (i.tick_attends _), settle_taken _ _⟩
  | resume index =>
    simp only [next]
    split
    · exact ⟨same, rfl⟩
    · rename_i rest found
      obtain ⟨i, attends⟩ := sound.ticks rest (List.mem_of_getElem? found)
      split
      · exact ⟨settle_change (b := { b with ticking := b.ticking.eraseIdx index }) (attends _),
          settle_taken _ _⟩
      · exact ⟨same, rfl⟩
  | finish i =>
    refine ⟨?_, rfl⟩
    have sub := leaving_sublist sound allowed
    show b.workspace.Change _ (b.workspace.finish i)
    rw [leaving_finish] at sub ⊢
    cases current : b.workspace.isCurrent i with
    | true =>
      rw [current] at sub
      rw [Workspace.finish_of_current current]
      exact .removes sub (by simp)
    | false =>
      rw [Workspace.finish_of_stale current]
      exact same
  | stop target =>
    refine ⟨?_, rfl⟩
    show b.workspace.Change (b.workspace.scheduler.targeted target) (b.workspace.stop target).2
    by_cases miss : b.workspace.scheduler.targeted target = []
    · rw [Workspace.stop_of_miss miss, miss]
      exact same
    · rw [Workspace.stop_of_hit miss]
      exact .removes (Scheduler.targeted_sublist _ _) miss
  | drain => exact absurd rfl other
  | pass time => exact ⟨.of_calm ⟨⟨0, rfl⟩, rfl, [], by simp [next], by simp⟩, rfl⟩
  | provideInput line =>
    exact ⟨.of_calm ⟨⟨0, rfl⟩, rfl, [], by simp [next, Workspace.provideInput], by simp⟩, rfl⟩

theorem next_tells (sound : b.Sound) (allowed : b.Allows event) :
    ∃ said, (b.next event).pushed = b.pushed ++ said ∧
      Message.lists said =
        if (b.next event).workspace.scheduler.active = b.workspace.scheduler.active then []
        else [(b.next event).workspace.scheduler.names] := by
  by_cases drained : event = .drain
  · subst drained
    refine ⟨[], ?_, ?_⟩
    · simp [next, pushed, Bus.drain]
    · rw [if_pos (by rfl)]
      rfl
  · obtain ⟨change, taken⟩ := next_change sound allowed drained
    obtain ⟨said, told, lists⟩ := change.tells
    exact ⟨said, by rw [pushed, pushed, taken, told, List.append_assoc], lists⟩

/-! ### All events -/

theorem Fresh.sound (fresh : b.Fresh) : b.Sound where
  history := by
    unfold Workspace.history
    rw [fresh.scheduler, fresh.inbox]
    exact ⟨Scheduler.Sound.empty, by simp, List.Pairwise.nil, by simp⟩
  listed := by simp [fresh.scheduler]
  ticks := by simp [fresh.ticking]
  shown := by simp [shown, pushed, fresh.taken, fresh.bus, fresh.scheduler, Message.lists,
    Scheduler.names]

theorem Sound.next (sound : b.Sound) (allowed : b.Allows event) : (b.next event).Sound := by
  have shown : (b.next event).shown = (b.next event).workspace.scheduler.names := by
    obtain ⟨said, pushed, lists⟩ := next_tells sound allowed
    unfold Bulletin.shown
    rw [pushed, Message.lists_append, lists]
    by_cases same : (b.next event).workspace.scheduler.active = b.workspace.scheduler.active
    · rw [if_pos same, List.append_nil, Scheduler.names, same]
      exact sound.shown
    · rw [if_neg same, List.getLast?_concat, Option.getD_some]
  by_cases drained : event = .drain
  · subst drained
    exact ⟨sound.history, sound.listed, sound.ticks, shown⟩
  · obtain ⟨change, -⟩ := next_change sound allowed drained
    refine ⟨change.sound sound.history, change.active_sublist sound.listed, ?_, shown⟩
    cases event with
    | enlist scripts =>
      simp only [Bulletin.next]
      split <;> exact sound.ticks
    | tick i => exact settle_ticks (i.tick_attends b.workspace) sound.ticks
    | resume index =>
      simp only [Bulletin.next]
      split
      · exact sound.ticks
      · rename_i rest found
        obtain ⟨i, attends⟩ := sound.ticks rest (List.mem_of_getElem? found)
        split
        · exact settle_ticks (attends b.workspace) fun other mem =>
            sound.ticks other (List.mem_of_mem_eraseIdx mem)
        · exact sound.ticks
    | _ => exact sound.ticks

theorem Reachable.sound (reach : b.Reachable) : b.Sound := by
  induction reach with
  | fresh new => exact new.sound
  | next _ allowed ih => exact ih.next allowed

/-- In every state that events lead to, the last list of scripts that was pushed holds the names of
the active set, each once, in the order in which their instances were handed out. Each event pushes
one such list if it changes the active set, namely the new one, and none otherwise. A batch that was
there becomes complete only in an event that takes out its last member, and at no stage of that
event is it complete before the new list is on the bus. -/
theorem published_list_is_true (reach : b.Reachable) :
    b.shown = b.workspace.scheduler.names ∧
    b.workspace.scheduler.names.Nodup ∧
    b.workspace.scheduler.active.Sublist (b.workspace.inbox.map Instance.entry) ∧
    ∀ event, b.Allows event →
      (∃ said, (b.next event).pushed = b.pushed ++ said ∧
        Message.lists said =
          if (b.next event).workspace.scheduler.active = b.workspace.scheduler.active then []
          else [(b.next event).workspace.scheduler.names]) ∧
      (∀ id ≤ b.workspace.scheduler.lastBatch, b.workspace.scheduler.isComplete id = false →
        (b.next event).workspace.scheduler.isComplete id = true →
          b.workspace.scheduler.HasMember id ∧
          ¬ (b.next event).workspace.scheduler.HasMember id ∧ b.leaving event ≠ []) ∧
      (b.leaving event ≠ [] →
        b.workspace.Stage (b.leaving event) (b.next event).workspace ∧
        ∀ stage, b.workspace.Stage (b.leaving event) stage →
          ∀ id, b.workspace.scheduler.isComplete id = false →
            stage.scheduler.isComplete id = true →
              stage.bus = b.workspace.bus.push
                (b.next event).workspace.scheduler.announcement) := by
  have sound := reach.sound
  refine ⟨sound.shown, sound.history.scheduler.names_nodup, sound.listed, ?_⟩
  intro event allowed
  refine ⟨next_tells sound allowed, ?_, ?_⟩
  · intro id started before after
    have other : event ≠ .drain := by
      rintro rfl
      have same : (b.next .drain).workspace.scheduler = b.workspace.scheduler := rfl
      rw [same, before] at after
      cases after
    obtain ⟨change, -⟩ := next_change sound allowed other
    exact change.last_member_left sound.history started before after
  · intro some
    have other : event ≠ .drain := by
      rintro rfl
      exact some rfl
    have removed := (next_change sound allowed other).1.eq_remove some
    have scheduler : (b.next event).workspace.scheduler =
        b.workspace.scheduler.without (b.leaving event) := by
      rw [removed, Workspace.remove_eq]
    refine ⟨?_, fun stage reached id before after => ?_⟩
    · rw [removed]
      exact Workspace.stage_remove _ _
    · rw [scheduler]
      exact reached.announced_of_isComplete before after

/-- Nothing is running, and one script can be started. -/
def bare : Bulletin :=
  { workspace :=
      { config := .isolated
        registry := Registry.standard
        device := .recording
        store := .memory ⟨[("b", "print 1")]⟩ } }

/-- Two scripts were registered, the first has started a third within its tick, the bus was drained,
and the second was stopped. -/
def overseen : Bulletin :=
  bare.next (.enlist [("a", "run b"), ("c", "wait 1")])
    |>.next (.tick (.ofText "a" "run b" 1 1))
    |>.next .drain
    |>.next (.stop (.named "c"))

theorem overseen_reachable : overseen.Reachable := by
  have enlisted : (bare.next (.enlist [("a", "run b"), ("c", "wait 1")])).Reachable :=
    .next (.fresh ⟨rfl, rfl, rfl, rfl, rfl⟩) (by simp [Allows])
  have handed : (bare.next (.enlist [("a", "run b"), ("c", "wait 1")])).Allows
      (.tick (.ofText "a" "run b" 1 1)) := ⟨_, List.mem_cons_self, rfl⟩
  have drained := @Reachable.next _ .drain (enlisted.next handed) trivial
  exact @Reachable.next _ (.stop (.named "c")) drained trivial

/-- The instance that was started within the tick. -/
def third : Instance :=
  .ofText "b" "print 1" 3 2

/-- The end of the third script completes its batch, after the first script is told to be the only
one left. -/
theorem overseen_list_is_true :
    overseen.Reachable ∧ overseen.shown = ["a", "b"] ∧ overseen.Allows (.finish third) ∧
      overseen.workspace.scheduler.isComplete 2 = false ∧
      (overseen.next (.finish third)).workspace.scheduler.isComplete 2 = true ∧
      ∃ said, (overseen.next (.finish third)).pushed = overseen.pushed ++ said ∧
        Message.lists said = [["a"]] := by
  obtain ⟨shown, -, -, events⟩ := published_list_is_true overseen_reachable
  have found : overseen.workspace.scheduler =
        { active := [⟨"a", 1, 1⟩, third.entry], batches := [⟨1, 1⟩, ⟨2, 1⟩], lastBatch := 2,
          nextGeneration := 4 } ∧
      overseen.workspace.inbox.any (·.entry == third.entry) = true := by
    rw [overseen, bare, Registry.standard_eq_catalogue]
    decide +kernel
  obtain ⟨scheduler, handed⟩ := found
  have after : ∀ b : Bulletin, (b.next (.finish third)).workspace.scheduler =
      (b.workspace.scheduler.finish third).1 := fun b => b.workspace.finish_scheduler third
  obtain ⟨i, mem, same⟩ := List.any_eq_true.mp handed
  have allowed : overseen.Allows (.finish third) := ⟨i, mem, (beq_iff_eq.mp same).symm⟩
  obtain ⟨⟨said, pushed, lists⟩, -⟩ := events _ allowed
  rw [after, scheduler] at lists
  rw [shown, after, scheduler]
  exact ⟨overseen_reachable, rfl, allowed, rfl, rfl, said, pushed, lists⟩

end Bulletin

end LineScript
