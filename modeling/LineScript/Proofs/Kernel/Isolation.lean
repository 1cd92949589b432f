import LineScript.Proofs.Kernel.Lineage
import LineScript.Proofs.Kernel.Solitude

/-!
# Isolation

Scripts that keep to themselves do not notice each other. What comes of the ticks of an instance is
the same as if it was running by itself, whatever becomes of the others in between, and two turns of
different jobs can change places. All that differs is the order of what is on the bus. If both
scripts end, the lists of those that are still running are told in that order too, so that the first
one leaves out whoever has ended first.

* `Scheduler.dismiss_comm` and `Scheduler.dismiss_dismiss_messages` are about the ends of two
  instances.
* `Company.Pair.after_eq` is what two turns come to, one after the other, in terms of what each of
  them would have come to by itself.
* `Company.Swapped` says all that is known of the two orders.
-/

namespace LineScript

namespace Scheduler

/-! ## The ends of two instances -/

/-- The names of the running scripts, but for these generations. -/
def namesBut (s : Scheduler) (gone : List Nat) : List String :=
  (s.active.filter fun e => e.generation ∉ gone).map (·.name)

/-- The instance that ends, if there is one, is running. -/
def Runs (s : Scheduler) (ended : Option Instance) : Prop :=
  ∀ i, ended = some i → s.isCurrent i.name i.generation = true

variable {s : Scheduler} {ended other : Option Instance}

theorem dismiss_eq (h : s.Registered) (running : s.Runs ended) :
    s.dismiss ended =
      ({ s with
          active := s.active.filter fun e => e.generation ∉ ended.toList.map (·.generation)
          batches := ended.toList.foldl (fun batches i => memberEnded batches i.batch) s.batches },
        ended.toList.map fun i => .scripts (s.namesBut [i.generation])) := by
  cases ended with
  | none => simp [dismiss]
  | some i =>
    obtain ⟨mine, mem, name, generation⟩ := (isCurrent_iff h.names_nodup).mp (running i rfl)
    -- Whoever has the name of the instance is the instance.
    have kept : s.active.filter (fun e => !([i.entry].any (·.name == e.name))) =
        s.active.filter fun e => e.generation ∉ [i.generation] := by
      refine List.filter_congr fun e active => ?_
      have same : i.name = e.name ↔ e.generation = i.generation := by
        constructor
        · intro named
          rw [eq_of_name_eq h.names_nodup active mem (named.symm.trans name.symm), generation]
        · intro aged
          rw [h.eq_of_generation_eq active mem (aged.trans generation.symm), name]
      have named : (i.name == e.name) = decide (e.generation = i.generation) := by
        rw [Bool.eq_iff_iff, beq_iff_eq, decide_eq_true_iff, same]
      simp [Instance.entry, named]
    have left : (s.without [i.entry]).active =
        s.active.filter fun e => e.generation ∉ [i.generation] := kept
    have told : (s.without [i.entry]).announcement = .scripts (s.namesBut [i.generation]) := by
      rw [announcement, names, left, namesBut]
    rw [dismiss, finish_of_current (running i rfl), told]
    unfold without
    rw [kept]
    rfl

/-- The end of one instance leaves another one current or not. -/
theorem isCurrent_dismiss (h : s.Registered) {name : String} {generation : Nat}
    (apart : ∀ i, ended = some i → i.generation ≠ generation) :
    (s.dismiss ended).1.isCurrent name generation = s.isCurrent name generation := by
  rw [Bool.eq_iff_iff, isCurrent_iff (h.dismiss ended).names_nodup, isCurrent_iff h.names_nodup]
  constructor
  · rintro ⟨e, mem, same⟩
    exact ⟨e, ((mem_dismiss h ended).mp mem).1, same⟩
  · rintro ⟨e, mem, name, same⟩
    refine ⟨e, (mem_dismiss h ended).mpr ⟨mem, fun i leaves _ aged => ?_⟩, name, same⟩
    exact apart i leaves (aged.symm.trans same)

/-- The two options are of different generations. -/
def Apart (ended other : Option Instance) : Prop :=
  ∀ i j, ended = some i → other = some j → i.generation ≠ j.generation

theorem Apart.symm (h : Apart ended other) : Apart other ended :=
  fun i j here there => Ne.symm (h j i there here)

theorem Runs.dismiss (running : s.Runs other) (h : s.Registered) (apart : Apart ended other) :
    (s.dismiss ended).1.Runs other := by
  intro j leaves
  rw [isCurrent_dismiss h fun i gone => apart i j gone leaves]
  exact running j leaves

theorem memberEnded_comm (batches : List Batch) (a b : Nat) :
    memberEnded (memberEnded batches a) b = memberEnded (memberEnded batches b) a := by
  by_cases same : a = b
  · rw [same]
  · unfold memberEnded
    rw [List.filterMap_filterMap, List.filterMap_filterMap]
    congr 1
    funext batch
    by_cases first : batch.id = a
    · by_cases last : batch.remaining ≤ 1 <;> simp [first, last, same]
    · by_cases second : batch.id = b
      · by_cases last : batch.remaining ≤ 1 <;> simp [second, last, Ne.symm same]
      · simp [first, second]

/-- Two instances end in either order. -/
theorem dismiss_comm (h : s.Registered) (running : s.Runs ended) (running' : s.Runs other)
    (apart : Apart ended other) :
    ((s.dismiss ended).1.dismiss other).1 = ((s.dismiss other).1.dismiss ended).1 := by
  rw [dismiss_eq (h.dismiss _) (running'.dismiss h apart),
    dismiss_eq (h.dismiss _) (running.dismiss h apart.symm), dismiss_eq h running,
    dismiss_eq h running']
  have batches : other.toList.foldl (fun batches i => memberEnded batches i.batch)
        (ended.toList.foldl (fun batches i => memberEnded batches i.batch) s.batches) =
      ended.toList.foldl (fun batches i => memberEnded batches i.batch)
        (other.toList.foldl (fun batches i => memberEnded batches i.batch) s.batches) := by
    cases ended with
    | none => rfl
    | some i =>
      cases other with
      | none => rfl
      | some j => exact memberEnded_comm ..
  simp only [batches, List.filter_filter, Bool.and_comm]

/-- The second of two ends is told with a list that leaves out both. -/
theorem dismiss_dismiss_messages (h : s.Registered) (running : s.Runs ended)
    (running' : s.Runs other) (apart : Apart ended other) :
    ((s.dismiss ended).1.dismiss other).2 =
      other.toList.map fun i =>
        .scripts (s.namesBut (i.generation :: ended.toList.map (·.generation))) := by
  rw [dismiss_eq (h.dismiss _) (running'.dismiss h apart), dismiss_eq h running]
  simp only [namesBut, List.filter_filter]
  refine List.map_congr_left fun i _ => ?_
  congr 3
  funext e
  simp

end Scheduler

namespace Workspace

theorem messages_concluded (ws : Workspace) (said : List Message) (ended : Option Instance) :
    (ws.concluded said ended).bus.pending.toList =
      ws.bus.pending.toList ++ (said ++ (ws.scheduler.dismiss ended).2) := by
  simp [concluded, publish]

section

variable {ws : Workspace} {ended ended' : Option Instance}
  (registered : ws.scheduler.Registered) (running : ws.scheduler.Runs ended)
  (running' : ws.scheduler.Runs ended') (apart : Scheduler.Apart ended ended')
  (said said' : List Message) (drawn drawn' : Entropy)

include registered running running' apart

/-- Two turns end in either order, with other messages and random numbers. -/
theorem concluded_comm :
    (((ws.stir drawn').concluded said' ended').stir drawn).concluded said ended =
      { (((ws.stir drawn).concluded said ended).stir drawn').concluded said' ended' with
        bus := ((((ws.stir drawn').concluded said' ended').stir drawn).concluded said ended).bus
        entropy := drawn } := by
  have left := Scheduler.dismiss_comm registered running running' apart
  simp only [concluded, publish, stir, left]

theorem messages_concluded_concluded :
    ((((ws.stir drawn).concluded said ended).stir drawn').concluded said'
        ended').bus.pending.toList =
      ws.bus.pending.toList ++
        (said ++ ended.toList.map fun i => .scripts (ws.scheduler.namesBut [i.generation])) ++
        (said' ++ ended'.toList.map fun i =>
          .scripts (ws.scheduler.namesBut (i.generation :: ended.toList.map (·.generation)))) := by
  rw [messages_concluded]
  show ((ws.stir drawn).concluded said ended).bus.pending.toList ++
    (said' ++ ((ws.scheduler.dismiss ended).1.dismiss ended').2) = _
  rw [messages_concluded, Scheduler.dismiss_dismiss_messages registered running running' apart]
  show ws.bus.pending.toList ++ (said ++ (ws.scheduler.dismiss ended).2) ++ _ = _
  rw [Scheduler.dismiss_eq registered running]

end

end Workspace

namespace Company

open Workspace

variable {c : Company} {a b : Nat} {ea eb : Entropy} {jobA jobB : Job} {ws : Workspace}

/-! ## Two turns -/

theorem Turns.runs (h : c.Turns a ea jobA ws) :
    c.workspace.scheduler.Runs (Job.ended? (jobA.ticked? (c.workspace.stir ea))) := by
  intro i leaves
  cases ticked : jobA.ticked? (c.workspace.stir ea) with
  | none =>
    rw [ticked] at leaves
    cases leaves
  | some _ =>
    have stale : (!(c.workspace.stir ea).isCurrent jobA.inst) = false :=
      Job.not_isStale_of_ticked? ticked
    rw [← isCurrent_congr _ (h.parallel.ended_entry i leaves)] at stale
    have current : (c.workspace.stir ea).isCurrent i = true := by simpa using stale
    exact current

/-- What a turn leaves is beside what it found, for all others. -/
theorem Turns.beside (h : c.Turns a ea jobA ws) (sound : c.Sound) {who : Instance}
    (other : who.generation ≠ a) (entropy : Entropy) :
    Beside who (c.workspace.stir entropy)
      ((jobA.poll (c.workspace.stir ea)).2.stir entropy) where
  toShares := { h.shares with }
  entropy := rfl
  current := by
    rw [h.here_eq]
    refine Scheduler.isCurrent_dismiss sound.registered fun i leaves => ?_
    rw [h.ended_generation leaves]
    exact Ne.symm other
  names := by
    rw [h.here_eq]
    intro name mem
    obtain ⟨e, active, rfl⟩ := List.mem_map.mp mem
    exact List.mem_map_of_mem ((Scheduler.mem_dismiss sound.registered _).mp active).1

/-- What is on the bus. -/
def messages (c : Company) : List Message :=
  c.workspace.bus.pending.toList

/-- The generations that end with a turn. -/
def leaves (c : Company) (generation : Nat) (entropy : Entropy) : List Nat :=
  (Job.ended? (c.outcome? generation (.turn generation entropy))).toList.map (·.generation)

/-- The messages of a turn: what is said with the end of a tick, and the scripts that are still
running if the instance has ended. Others may have gone before. -/
def report (c : Company) (generation : Nat) (entropy : Entropy) (gone : List Nat) :
    List Message :=
  Job.block (c.outcome? generation (.turn generation entropy)) ++
    (c.leaves generation entropy).map fun ended =>
      .scripts (c.workspace.scheduler.namesBut (ended :: gone))

theorem outcome?_of_some (found : c.kernel.job? a = some jobA) :
    c.outcome? a (.turn a ea) = jobA.ticked? (c.workspace.stir ea) := by
  simp only [outcome?, if_true, found, Option.bind_some]

/-- Two jobs with their turns ahead, neither of which concerns anybody else. -/
structure Pair (c : Company) (a b : Nat) (ea eb : Entropy) (jobA jobB : Job) : Prop where
  sound : c.Sound
  ne : a ≠ b
  first : c.kernel.job? a = some jobA
  second : c.kernel.job? b = some jobB
  first_private : c.IsPrivate (.turn a ea)
  second_private : c.IsPrivate (.turn b eb)

namespace Pair

theorem symm (h : c.Pair a b ea eb jobA jobB) : c.Pair b a eb ea jobB jobA :=
  ⟨h.sound, Ne.symm h.ne, h.second, h.first, h.second_private, h.first_private⟩

theorem turns (h : c.Pair a b ea eb jobA jobB) :
    c.Turns a ea jobA (c.workspace.stir ea) :=
  h.sound.turns h.first h.first_private (.refl _ _)

/-- The second turn comes to the same after the first one. -/
theorem turns_after (h : c.Pair a b ea eb jobA jobB) :
    c.Turns b eb jobB ((jobA.poll (c.workspace.stir ea)).2.stir eb) := by
  have other : jobB.inst.generation ≠ a := by
    rw [show jobB.inst.generation = b from Kernel.generation_of_job? h.second]
    exact Ne.symm h.ne
  exact h.sound.turns h.second h.second_private (h.turns.beside h.sound other eb)

theorem job?_after (h : c.Pair a b ea eb jobA jobB) :
    (c.next (.turn a ea)).kernel.job? b = some jobB := by
  rw [next_turn_of_some h.first,
    job?_settled_of_ne (fun _ left => h.turns.left_generation left) (Ne.symm h.ne)]
  exact h.second

/-- The workspace after both turns. -/
def last (c : Company) (ea eb : Entropy) (jobA jobB : Job) : Workspace :=
  jobB.conclude (c.workspace.stir eb) (jobA.conclude (c.workspace.stir ea) c.workspace)

/-- What two turns come to, in terms of what each of them would have come to by itself. -/
theorem after_eq (h : c.Pair a b ea eb jobA jobB) :
    c.after [.turn a ea, .turn b eb] =
      (c.settled a (jobA.poll (c.workspace.stir ea))
          (jobA.restAfter (c.rest a) (c.workspace.stir ea))).settled b
        ((jobB.poll (c.workspace.stir eb)).1, last c ea eb jobA jobB)
        (jobB.restAfter (c.rest b) (c.workspace.stir eb)) := by
  have turns := h.turns_after
  have polled : jobB.poll ((jobA.poll (c.workspace.stir ea)).2.stir eb) =
      ((jobB.poll (c.workspace.stir eb)).1, last c ea eb jobA jobB) := by
    refine Prod.ext turns.parallel.left ?_
    refine turns.parallel.there.trans (Eq.trans (Job.conclude_stir ..) ?_)
    rw [h.turns.here_eq]
    rfl
  show (c.next (.turn a ea)).next (.turn b eb) = _
  rw [next_turn_of_some h.job?_after, next_turn_of_some h.first,
    rest_settled_of_ne (Ne.symm h.ne)]
  show settled _ b (jobB.poll ((jobA.poll (c.workspace.stir ea)).2.stir eb))
    (jobB.restAfter (c.rest b) ((jobA.poll (c.workspace.stir ea)).2.stir eb)) = _
  rw [turns.rest, polled]

/-! ### What is the same in either order -/

theorem outcome?_after (h : c.Pair a b ea eb jobA jobB) :
    (c.next (.turn a ea)).outcome? b (.turn b eb) = c.outcome? b (.turn b eb) := by
  have workspace : (c.next (.turn a ea)).workspace = (jobA.poll (c.workspace.stir ea)).2 := by
    rw [next_turn_of_some h.first]
    rfl
  simp only [outcome?, if_true, h.job?_after, h.second, workspace]
  exact h.turns_after.ticked

theorem apart (h : c.Pair a b ea eb jobA jobB) :
    Scheduler.Apart (Job.ended? (jobA.ticked? (c.workspace.stir ea)))
      (Job.ended? (jobB.ticked? (c.workspace.stir eb))) := by
  intro i j first second
  rw [h.turns.ended_generation first, h.symm.turns.ended_generation second]
  exact h.ne

theorem last_eq (h : c.Pair a b ea eb jobA jobB) :
    last c eb ea jobB jobA =
      { last c ea eb jobA jobB with
        bus := (last c eb ea jobB jobA).bus
        entropy := (last c eb ea jobB jobA).entropy } := by
  exact concluded_comm h.sound.registered h.turns.runs h.symm.turns.runs h.apart ..

/-- What has been told after both turns. -/
theorem messages_last (h : c.Pair a b ea eb jobA jobB) :
    (last c ea eb jobA jobB).bus.pending.toList =
      c.messages ++ c.report a ea [] ++ c.report b eb (c.leaves a ea) := by
  unfold report leaves messages
  rw [outcome?_of_some h.first, outcome?_of_some h.second, List.map_map, List.map_map]
  exact messages_concluded_concluded h.sound.registered h.turns.runs h.symm.turns.runs h.apart ..

theorem job?_last (h : c.Pair a b ea eb jobA jobB) (generation : Nat) :
    (c.after [.turn a ea, .turn b eb]).kernel.job? generation =
      if generation = b then (jobB.poll (c.workspace.stir eb)).1
      else if generation = a then (jobA.poll (c.workspace.stir ea)).1
      else c.kernel.job? generation := by
  have first : ∀ job, (jobA.poll (c.workspace.stir ea)).1 = some job → job.generation = a :=
    fun _ left => h.turns.left_generation left
  have second : ∀ job, ((jobB.poll (c.workspace.stir eb)).1, last c ea eb jobA jobB).1 = some job →
      job.generation = b := fun _ left => h.symm.turns.left_generation left
  rw [h.after_eq]
  by_cases mine : generation = b
  · rw [if_pos mine, mine, job?_settled second]
  · rw [if_neg mine, job?_settled_of_ne second mine]
    by_cases also : generation = a
    · rw [if_pos also, also, job?_settled first]
    · rw [if_neg also, job?_settled_of_ne first also]

end Pair

/-- What is known of two turns in either order, `ab` and `ba`. -/
structure Swapped (c : Company) (a b : Nat) (ea eb : Entropy) (ab ba : Company) : Prop where
  /-- The same comes of both ticks. -/
  first_outcome : (c.next (.turn b eb)).outcome? a (.turn a ea) = c.outcome? a (.turn a ea)
  second_outcome : (c.next (.turn a ea)).outcome? b (.turn b eb) = c.outcome? b (.turn b eb)
  /-- The same is left of the workspace, but for what is on the bus and random numbers. -/
  workspace : ba.workspace =
    { ab.workspace with bus := ba.workspace.bus, entropy := ba.workspace.entropy }
  /-- The same is left of the kernel, but for the order in which jobs have had their turns. -/
  kernel : ba.kernel =
    { ab.kernel with
      workspace := ba.workspace
      jobs := ba.kernel.jobs
      parties := ba.kernel.parties }
  jobs : ba.kernel.jobs.Perm ab.kernel.jobs
  job? : ∀ generation, ba.kernel.job? generation = ab.kernel.job? generation
  parties : ba.kernel.parties.Perm ab.kernel.parties
  rest : ba.rest = ab.rest
  /-- What is told in the first order. Whoever ends second is told with a list without the first. -/
  messages : ab.messages = c.messages ++ c.report a ea [] ++ c.report b eb (c.leaves a ea)
  messages_swapped : ba.messages =
    c.messages ++ c.report b eb [] ++ c.report a ea (c.leaves b eb)
  /-- Unless both end, the order is all that differs. -/
  reports : c.leaves a ea = [] ∨ c.leaves b eb = [] →
    c.report b eb (c.leaves a ea) = c.report b eb [] ∧
      c.report a ea (c.leaves b eb) = c.report a ea []

theorem report_eq_of_leaves_eq_nil (stays : c.leaves a ea = []) (gone gone' : List Nat) :
    c.report a ea gone = c.report a ea gone' := by
  rw [report, report, stays]
  rfl

theorem perm_of_settled {α : Type} {p q : α → Bool} {first second : List α} (l : List α)
    (first_kept : ∀ x ∈ first, q x = true) (second_kept : ∀ x ∈ second, p x = true) :
    ((l.filter q ++ second).filter p ++ first).Perm ((l.filter p ++ first).filter q ++ second) := by
  have here : (l.filter q ++ second).filter p = (l.filter q).filter p ++ second := by
    rw [List.filter_append, List.filter_eq_self.mpr second_kept]
  have there : (l.filter p ++ first).filter q = (l.filter q).filter p ++ first := by
    rw [List.filter_append, List.filter_eq_self.mpr first_kept, List.filter_comm]
  rw [here, there, List.append_assoc, List.append_assoc]
  exact List.perm_append_comm.append_left _

theorem Pair.swapped (h : c.Pair a b ea eb jobA jobB) :
    Swapped c a b ea eb (c.after [.turn a ea, .turn b eb]) (c.after [.turn b eb, .turn a ea]) := by
  have first : ∀ job ∈ (jobA.poll (c.workspace.stir ea)).1.toList, job.generation = a :=
    fun _ left => h.turns.left_generation (Option.mem_toList.mp left)
  have second : ∀ job ∈ (jobB.poll (c.workspace.stir eb)).1.toList, job.generation = b :=
    fun _ left => h.symm.turns.left_generation (Option.mem_toList.mp left)
  have ab := h.after_eq
  have ba := h.symm.after_eq
  exact
    { first_outcome := h.symm.outcome?_after
      second_outcome := h.outcome?_after
      workspace := by
        rw [ab, ba]
        exact h.last_eq
      kernel := by
        rw [ab, ba]
        rfl
      jobs := by
        rw [ab, ba]
        refine perm_of_settled _ (fun job left => ?_) fun job left => ?_
        · rw [first job left]
          exact bne_iff_ne.mpr h.ne
        · rw [second job left]
          exact bne_iff_ne.mpr (Ne.symm h.ne)
      job? := by
        intro generation
        rw [h.job?_last, h.symm.job?_last]
        by_cases mine : generation = b
        · have other : generation ≠ a := by
            rw [mine]
            exact Ne.symm h.ne
          rw [if_neg other, if_pos mine, if_pos mine]
        · rw [if_neg mine, if_neg mine]
      parties := by
        rw [ab, ba]
        refine perm_of_settled _ (fun party left => ?_) fun party left => ?_
        · obtain ⟨job, mem, rfl⟩ := List.mem_map.mp left
          simp [Job.party, first job mem, h.ne]
        · obtain ⟨job, mem, rfl⟩ := List.mem_map.mp left
          simp [Job.party, second job mem, Ne.symm h.ne]
      rest := by
        rw [ab, ba]
        exact Function.update_comm (Ne.symm h.ne) ..
      messages := by
        rw [ab]
        exact h.messages_last
      messages_swapped := by
        rw [ba]
        exact h.symm.messages_last
      reports := by
        rintro (stays | stays)
        · rw [stays]
          exact ⟨rfl, report_eq_of_leaves_eq_nil stays ..⟩
        · rw [stays]
          exact ⟨report_eq_of_leaves_eq_nil stays .., rfl⟩ }

/-! ## All turns -/

theorem Sound.after {events : List Event} (h : c.Sound) (priv : c.ArePrivate events) :
    (c.after events).Sound := by
  induction events generalizing c with
  | nil => exact h
  | cons event rest ih => exact ih (h.next priv.1) priv.2

section Start

variable {k : Kernel}

theorem Sound.of (registered : k.workspace.scheduler.Registered)
    (between : ∀ job ∈ k.jobs, job.phase.wait? = none) : (Company.of k).Sound where
  registered := registered
  tells := fun _ job found =>
    Job.tells_of_wait?_eq_none (between job (List.mem_of_find?_eq_some found)) _

theorem Linked.of (registered : k.workspace.scheduler.Registered) (generation : Nat) :
    Linked generation (Company.of k) (Company.of (k.alone generation)) where
  job := Kernel.find?_filter_of_imp (fun _ mine => mine) _
  rest := rfl
  others := by
    intro other ne
    refine List.find?_eq_none.mpr fun job mem => ?_
    rw [beq_iff_eq.mp (List.mem_filter.mp mem).2]
    simpa using Ne.symm ne
  shares := ⟨rfl, rfl, rfl, rfl, rfl, rfl, rfl⟩
  registered :=
    { names_nodup := registered.names_nodup.sublist (List.filter_sublist.map _)
      ascending := registered.ascending.sublist (List.filter_sublist.map _)
      generation_lt := fun e mem => registered.generation_lt e (List.mem_filter.mp mem).1 }
  active := by
    intro e
    exact List.mem_filter.trans (and_congr_right fun _ => beq_iff_eq)

/-- Scripts that keep to themselves are isolated. From any kernel whose jobs are between ticks, what
comes of the ticks of an instance is what comes of them if nobody else is running, with the same
random numbers, stops and times. And wherever two jobs have turns ahead that concern nobody else, it
makes no difference which of them is first, but for the order of the messages: if both end, the list
of running scripts that is told first leaves out only whoever has ended first. -/
theorem instances_are_isolated (reach : k.Reachable)
    (between : ∀ job ∈ k.jobs, job.phase.wait? = none) (events : List Event)
    (priv : (Company.of k).ArePrivate events) :
    (∀ generation, (Company.of (k.alone generation)).sequence generation events =
      (Company.of k).sequence generation events) ∧
    ∀ c a b ea eb jobA jobB, c = (Company.of k).after events → a ≠ b →
      c.kernel.job? a = some jobA → c.kernel.job? b = some jobB →
      c.IsPrivate (.turn a ea) → c.IsPrivate (.turn b eb) →
      Swapped c a b ea eb (c.after [.turn a ea, .turn b eb])
        (c.after [.turn b eb, .turn a ea]) := by
  have registered := reach.driven.sound.toRegistered
  have sound := Sound.of registered between
  refine ⟨fun generation => (Linked.of registered generation).sequence_eq sound priv, ?_⟩
  rintro c a b ea eb jobA jobB rfl ne first second first_private second_private
  have pair : ((Company.of k).after events).Pair a b ea eb jobA jobB :=
    ⟨sound.after priv, ne, first, second, first_private, second_private⟩
  exact pair.swapped

end Start

/-- A kernel with two scripts that have started, and whose first ticks are due. -/
def neighbours (first second : String) : Kernel :=
  let fresh := Kernel.withParts .isolated (.memory ⟨[("a", first), ("b", second)]⟩) .recording
    (.ofCommands [Builtin.run, Builtin.print])
  match fresh.start ["a", "b"] with
  | .ok (_, k) => ((k.receive.pollJob 1).pollJob 2).beginRound
  | .error _ => fresh

theorem neighbours_reachable (first second : String) : (neighbours first second).Reachable := by
  unfold neighbours
  dsimp only
  split
  · rename_i started k ok
    have start : k.Reachable := .move (.fresh (Kernel.withParts_fresh ..)) (.start ok)
    exact ((start.move .receive).move (.pollJob 1)).move (.pollJob 2) |>.move .beginRound
  · exact .fresh (Kernel.withParts_fresh ..)

/-- Two scripts that print: after a tick of the second one, the last ticks of both can change
places. Both scripts end with them. -/
theorem printers_are_isolated :
    let k := neighbours "print 1" "print 2\nprint 3"
    let events : List Event := [.turn 2 {}, .turn 2 {}, .round]
    let c := (Company.of k).after events
    (Company.of (k.alone 2)).sequence 2 events = (Company.of k).sequence 2 events ∧
      c.leaves 1 {} = [1] ∧ c.leaves 2 {} = [2] ∧
      Swapped c 1 2 {} {} (c.after [.turn 1 {}, .turn 2 {}])
        (c.after [.turn 2 {}, .turn 1 {}]) := by
  intro k events c
  have between : k.jobs.all (fun job => job.phase.wait?.isNone) = true := by decide +kernel
  have priv : (Company.of k).ArePrivate events := by
    have first : (Company.of k).contacts 2 {} = [] := by decide +kernel
    have second : ((Company.of k).next (.turn 2 {})).contacts 2 {} = [] := by decide +kernel
    refine ⟨?_, ?_, trivial, trivial⟩
    · rw [IsPrivate, first]
      simp
    · rw [IsPrivate, second]
      simp
  have found : (c.kernel.job? 1).isSome = true ∧ (c.kernel.job? 2).isSome = true := by
    decide +kernel
  have quiet : c.contacts 1 {} = [] ∧ c.contacts 2 {} = [] := by decide +kernel
  obtain ⟨jobA, first⟩ := Option.isSome_iff_exists.mp found.1
  obtain ⟨jobB, second⟩ := Option.isSome_iff_exists.mp found.2
  obtain ⟨alone, swapped⟩ := instances_are_isolated (neighbours_reachable _ _)
    (fun job mem => by simpa using List.all_eq_true.mp between job mem) events priv
  refine ⟨alone 2, by decide +kernel, by decide +kernel,
    swapped c 1 2 {} {} jobA jobB rfl (by decide) first second ?_ ?_⟩
  · rw [IsPrivate, quiet.1]
    simp
  · rw [IsPrivate, quiet.2]
    simp

/-- A start that is refused tells of another script: `a` writes, calls, reads and starts nothing,
and says something else if `b` is not running. And when two scripts end, the lists that are told in
one order are not those that are told in the other. -/
theorem neighbours_are_noticed :
    (Company.of (neighbours "run b y" "print 2")).contacts 1 {} =
        [.start (some (.alreadyActive "b"))] ∧
      (Company.of ((neighbours "run b y" "print 2").alone 1)).sequence 1 [.turn 1 {}] ≠
        (Company.of (neighbours "run b y" "print 2")).sequence 1 [.turn 1 {}] ∧
      (Company.of (neighbours "print 1" "print 2")).contacts 1 {} = [] ∧
      (Company.of (neighbours "print 1" "print 2")).contacts 2 {} = [] ∧
      ¬ ((Company.of (neighbours "print 1" "print 2")).after
          [.turn 1 {}, .turn 2 {}]).messages.Perm
        ((Company.of (neighbours "print 1" "print 2")).after
          [.turn 2 {}, .turn 1 {}]).messages := by
  refine ⟨by decide +kernel, fun same => ?_, by decide +kernel, by decide +kernel,
    by decide +kernel⟩
  have told : ((Company.of ((neighbours "run b y" "print 2").alone 1)).sequence 1
        [.turn 1 {}]).map Prod.snd ≠
      ((Company.of (neighbours "run b y" "print 2")).sequence 1 [.turn 1 {}]).map Prod.snd := by
    decide +kernel
  exact told (congrArg (List.map Prod.snd) same)

end Company

end LineScript
