import Gazette.Proofs.Schedule.Readiness

set_option autoImplicit false

/-! # What a tick does

A tick settles which tasks are due and then executes the first of them, up to its limit, each on
the store that the ones before have left. With a handler that leaves the queue alone none of them
is missed: each is still queued and due when its turn comes, so it is taken out of the queue with
its outcome, until an error that is fatal ends the tick. From there on nothing has happened
(`Executor.tick_exact`).
-/

namespace Gazette

/-! ## Turns -/

/-- A task that was given to the handler, and how the handler ended. -/
structure Turn where
  id : RecordId
  task : Task
  outcome : Except ScheduleError Unit

namespace Turn

/-- The handler succeeded. -/
def succeeded (turn : Turn) : Bool :=
  match turn.outcome with
  | .ok _ => true
  | .error _ => false

/-- What is told of the task once it is out of the queue. -/
def fired (turn : Turn) : Fired :=
  match turn.outcome with
  | .ok _ => .completed
  | .error error => .failed error

end Turn

namespace TickReport

/-- The report with the tasks of more turns, each in the list of its outcome. -/
def addAll (report : TickReport) (turns : List Turn) : TickReport where
  completed := report.completed ++ (turns.filter Turn.succeeded).map Turn.id
  failed := report.failed ++ (turns.filter (! Turn.succeeded ·)).map Turn.id
  hasMore := report.hasMore

theorem addAll_nil (report : TickReport) : report.addAll [] = report := by
  simp only [addAll, List.filter_nil, List.map_nil, List.append_nil]

theorem addAll_cons (report : TickReport) (turn : Turn) (turns : List Turn) :
    report.addAll (turn :: turns) = (report.add turn.id turn.fired).addAll turns := by
  obtain ⟨id, task, outcome⟩ := turn
  cases outcome <;> simp [addAll, add, List.filter_cons, Turn.fired, Turn.succeeded]

end TickReport

namespace Executor

variable {executor : Executor} {now : UnixTime} {store mid after : Store} {tasks : Table Task}

/-- The handler was given this task of the queue, and no error was fatal. The second store holds
all that the handler wrote, or nothing of it if it failed, and the task is out of the queue. -/
inductive Takes (executor : Executor) (now : UnixTime) (store : Store) : Turn → Store → Prop
  | completed {id : RecordId} {task : Task} {writes : WriteSet} {after : Store}
      (handled : executor.Handles id now store task (.ok ()) (.staged store writes))
      (emptied : Contents.Emptied (Queue.TaskKey id task)
        (store.contents.apply writes.operations) after.contents) :
      Takes executor now store ⟨id, task, .ok ()⟩ after
  | failed {id : RecordId} {task : Task} {error : ScheduleError} {overlay after : Store}
      (handled : executor.Handles id now store task (.error error) overlay)
      (passing : error.isFatal = false)
      (emptied : Contents.Emptied (Queue.TaskKey id task) store.contents after.contents) :
      Takes executor now store ⟨id, task, .error error⟩ after

/-- Turns one after another, each on what the one before has left. -/
inductive TakesAll (executor : Executor) (now : UnixTime) : Store → List Turn → Store → Prop
  | nil {store : Store} : TakesAll executor now store [] store
  | cons {store mid after : Store} {turn : Turn} {turns : List Turn}
      (first : executor.Takes now store turn mid)
      (others : TakesAll executor now mid turns after) :
      TakesAll executor now store (turn :: turns) after

/-- The other executor has the same limit and treats these tasks in the same way. -/
structure Matches (executor other : Executor) (now : UnixTime) (tasks : List Task) : Prop where
  limit_eq : other.limit = executor.limit
  handler_eq : ∀ task ∈ tasks, other.handler task now = executor.handler task now

/-- How a call ends that was to run some tasks. Of the handler it has asked no more than what it
does with the tasks that it came to. -/
inductive Ends (executor : Executor) (now : UnixTime) (ids : List RecordId) (report : TickReport)
    (call : Executor → Except ScheduleError TickReport × Store) (turns : List Turn)
    (after : Store) : Prop
  /-- All of them had their turns, and the report tells of each. -/
  | whole (all : turns.map Turn.id = ids)
      (result : ∀ other, executor.Matches other now (turns.map Turn.task) →
        call other = (.ok (report.addAll turns), after))
  /-- The first of those that had no turn failed with a fatal error, which is returned. -/
  | broken {id : RecordId} {rest : List RecordId} {task : Task} {error : ScheduleError}
      {overlay : Store} (first : turns.map Turn.id ++ id :: rest = ids)
      (handled : executor.Handles id now after task (.error error) overlay)
      (fatal : error.isFatal = true)
      (result : ∀ other, executor.Matches other now (turns.map Turn.task ++ [task]) →
        call other = (.error error, after))

theorem Matches.refl (executor : Executor) (now : UnixTime) (tasks : List Task) :
    executor.Matches executor now tasks :=
  ⟨rfl, fun _ _ => rfl⟩

theorem Matches.tail {other : Executor} {task : Task} {tasks : List Task}
    (h : executor.Matches other now (task :: tasks)) : executor.Matches other now tasks :=
  ⟨h.limit_eq, fun t ht => h.handler_eq t (List.mem_cons_of_mem _ ht)⟩

/-- The tasks that had their turns are the first ones. -/
theorem Ends.given {turns : List Turn} {ids : List RecordId} {report : TickReport}
    {call : Executor → Except ScheduleError TickReport × Store}
    (h : executor.Ends now ids report call turns after) : turns.map Turn.id <+: ids := by
  cases h with
  | whole all => exact all ▸ List.prefix_rfl
  | broken first => exact first ▸ List.prefix_append _ _

/-- Only what the call comes to matters. -/
theorem Ends.of_call_eq {turns : List Turn} {ids : List RecordId} {report : TickReport}
    {call call' : Executor → Except ScheduleError TickReport × Store}
    (h : executor.Ends now ids report call turns after)
    (call_eq : ∀ other : Executor, other.limit = executor.limit → call' other = call other) :
    executor.Ends now ids report call' turns after := by
  cases h with
  | whole all result =>
    exact .whole all fun other same => (call_eq other same.limit_eq).trans (result other same)
  | broken first handled fatal result =>
    exact .broken first handled fatal fun other same =>
      (call_eq other same.limit_eq).trans (result other same)

/-- A task that has its turn before the others does not change how these end. -/
theorem Ends.cons {turn : Turn} {turns : List Turn} {ids : List RecordId} {report : TickReport}
    {call call' : Executor → Except ScheduleError TickReport × Store}
    (h : executor.Ends now ids (report.add turn.id turn.fired) call turns after)
    (one : ∀ other : Executor, other.handler turn.task now = executor.handler turn.task now →
      call' other = call other) :
    executor.Ends now (turn.id :: ids) report call' (turn :: turns) after := by
  cases h with
  | whole all result =>
    refine .whole (congrArg (turn.id :: ·) all) fun other same => ?_
    rw [one other (same.handler_eq _ List.mem_cons_self), result other same.tail,
      report.addAll_cons]
  | broken first handled fatal result =>
    refine .broken (congrArg (turn.id :: ·) first) handled fatal fun other same => ?_
    rw [one other (same.handler_eq _ List.mem_cons_self), result other same.tail]

/-! ## One turn -/

/-- An execution depends on what the handler does with the task that is queued, and on nothing
else of the executor. -/
theorem execute_congr {other : Executor} {id : RecordId} {task : Task}
    (hget : Queue.get store id = .ok (some task))
    (same : other.handler task now = executor.handler task now) :
    other.execute id now store = executor.execute id now store := by
  simp only [execute, hget, run, same]

/-- A task that is queued and due has its turn, or ends everything with a fatal error. -/
theorem execute_turn (hspares : executor.SparesQueue)
    (hold : Queue.bucket.Holds store.contents tasks) (reliable : store.Reliable) {id : RecordId}
    {task : Task} (hqueued : tasks.records id = some task) (due : ¬ now < task.runAt) :
    (∃ error overlay, executor.Handles id now store task (.error error) overlay
        ∧ error.isFatal = true ∧ executor.execute id now store = (.error error, store)) ∨
      ∃ outcome after, executor.Takes now store ⟨id, task, outcome⟩ after
        ∧ executor.execute id now store = (.ok (Turn.fired ⟨id, task, outcome⟩), after)
        ∧ after.Reliable ∧ Queue.bucket.Holds after.contents (tasks.erase id) := by
  have hget : Queue.get store id = .ok (some task) :=
    (Queue.get_eq hold.represents reliable id).trans (congrArg Except.ok hqueued)
  -- what has left the queue has left it whole
  have left : ∀ {fired after}, executor.execute id now store = (.ok fired, after) →
      fired.leaves = true →
      after.Reliable ∧ Queue.bucket.Holds after.contents (tasks.erase id) := by
    intro fired after hrun leaves
    rcases execute_cases hspares hold reliable id now with
      ⟨-, stays⟩ | ⟨_, _, _, -, -, hrun', -, hafter, hold'⟩
    · rw [stays fired (by rw [hrun])] at leaves
      cases leaves
    · cases hrun.symm.trans hrun'
      exact ⟨hafter, hold'⟩
  obtain ⟨outcome, overlay, hrun⟩ : ∃ outcome overlay,
      store.stage.perform (executor.handler task now) = (outcome, overlay) := ⟨_, _, rfl⟩
  have handled : executor.Handles id now store task outcome overlay := ⟨hget, due, hrun⟩
  cases outcome with
  | ok done =>
    obtain ⟨writes, after, rfl, hexecute, emptied⟩ :=
      execute_completed hold.represents reliable hspares handled
    exact .inr ⟨_, after, .completed handled emptied, hexecute, left hexecute rfl⟩
  | error error =>
    cases hfatal : error.isFatal with
    | true =>
      have hexecute := (execute_fatal hold.represents reliable handled hfatal).1
      exact .inl ⟨error, overlay, handled, hfatal, hexecute⟩
    | false =>
      obtain ⟨after, hexecute, emptied⟩ :=
        execute_failed hold.represents reliable handled hfatal
      exact .inr ⟨_, after, .failed handled hfatal emptied, hexecute, left hexecute rfl⟩

/-! ## All turns -/

/-- Tasks that are queued and due have their turns one after another, up to a fatal error. -/
theorem executeAll_turns (hspares : executor.SparesQueue)
    (hold : Queue.bucket.Holds store.contents tasks) (reliable : store.Reliable)
    {ids : List RecordId} (nodup : ids.Nodup)
    (hdue : ∀ id ∈ ids, ∃ task, tasks.records id = some task ∧ ¬ now < task.runAt)
    (report : TickReport) :
    ∃ turns after tasks', executor.TakesAll now store turns after
      ∧ executor.Ends now ids report (·.executeAll now ids report store) turns after
      ∧ after.Reliable ∧ Queue.bucket.Holds after.contents tasks'
      ∧ (∀ turn ∈ turns, tasks.records turn.id = some turn.task)
      ∧ ∀ id, tasks'.records id = if id ∈ turns.map Turn.id then none else tasks.records id := by
  induction ids generalizing store tasks report with
  | nil =>
    have ends : executor.Ends now [] report (·.executeAll now [] report store) [] store :=
      .whole rfl fun _ _ => by rw [report.addAll_nil]; rfl
    exact ⟨[], store, tasks, .nil, ends, reliable, hold, List.forall_mem_nil _, fun _ => rfl⟩
  | cons id rest ih =>
    obtain ⟨fresh, nodup⟩ := List.nodup_cons.1 nodup
    obtain ⟨task, hqueued, due⟩ := hdue id List.mem_cons_self
    have hget : Queue.get store id = .ok (some task) :=
      (Queue.get_eq hold.represents reliable id).trans (congrArg Except.ok hqueued)
    rcases execute_turn hspares hold reliable hqueued due with
      ⟨error, overlay, handled, fatal, hexecute⟩ | ⟨outcome, mid, taken, hexecute, hmid, hold'⟩
    · have ends : executor.Ends now (id :: rest) report
          (·.executeAll now (id :: rest) report store) [] store := by
        refine .broken rfl handled fatal fun other same => ?_
        rw [executeAll, execute_congr hget (same.handler_eq task List.mem_cons_self), hexecute]
      exact ⟨[], store, tasks, .nil, ends, reliable, hold, List.forall_mem_nil _, fun _ => rfl⟩
    · -- the others are still queued and due
      have hdue' : ∀ i ∈ rest, ∃ t, (tasks.erase id).records i = some t ∧ ¬ now < t.runAt := by
        intro i hi
        obtain ⟨t, ht, late⟩ := hdue i (List.mem_cons_of_mem _ hi)
        refine ⟨t, ?_, late⟩
        rw [Table.records_erase, if_neg (ne_of_mem_of_not_mem hi fresh)]
        exact ht
      let turn : Turn := ⟨id, task, outcome⟩
      obtain ⟨turns, after, tasks', takes, ends, hafter, holds, given, gone⟩ :=
        ih hold' hmid nodup hdue' (report.add turn.id turn.fired)
      have ends' : executor.Ends now (id :: rest) report
          (·.executeAll now (id :: rest) report store) (turn :: turns) after := by
        refine ends.cons fun other same => ?_
        rw [executeAll, execute_congr hget same, hexecute]
      refine ⟨turn :: turns, after, tasks', .cons taken takes, ends', hafter, holds, ?_, ?_⟩
      · refine List.forall_mem_cons.2 ⟨hqueued, fun t ht => ?_⟩
        have found := given t ht
        rw [Table.records_erase] at found
        split at found
        · cases found
        · exact found
      · intro i
        simp only [gone, Table.records_erase, List.map_cons, List.mem_cons]
        by_cases same : i = id
        · rw [if_pos same, ite_self]
          exact (if_pos (.inl same)).symm
        · simp only [same, turn, if_false, false_or]

/-! ## Ticks -/

/-- A tick gives turns to the first tasks that are due, as many as it may run, and tells whether
there are more. -/
theorem tick_turns (hspares : executor.SparesQueue)
    (hold : Queue.bucket.Holds store.contents tasks) (reliable : store.Reliable) (now : UnixTime) :
    ∃ due turns after tasks', Queue.due store now = .ok due
      ∧ executor.TakesAll now store turns after
      ∧ executor.Ends now (due.take executor.limit) { hasMore := executor.limit < due.length }
          (·.tick now store) turns after
      ∧ after.Reliable ∧ Queue.bucket.Holds after.contents tasks'
      ∧ (∀ turn ∈ turns, tasks.records turn.id = some turn.task)
      ∧ (∀ id, tasks'.records id = if id ∈ turns.map Turn.id then none else tasks.records id)
      ∧ Queue.due after now = .ok (due.drop turns.length) := by
  obtain ⟨due, before, hdue, found⟩ := Queue.exists_due hold reliable now
  have ready : ∀ id ∈ due.take executor.limit,
      ∃ task, tasks.records id = some task ∧ ¬ now < task.runAt := by
    intro id hid
    obtain ⟨task, htask, early⟩ := (before.mem_iff id).1 (List.mem_of_mem_take hid)
    exact ⟨task, htask, Int64.not_lt.2 (UnixTime.lt_next_iff.1 early).1⟩
  have nodup : (due.take executor.limit).Nodup := before.nodup.sublist (List.take_sublist _ _)
  obtain ⟨turns, after, tasks', takes, ends, hafter, hold', given, gone⟩ :=
    executeAll_turns hspares hold reliable nodup ready { hasMore := executor.limit < due.length }
  -- one more task than may be run tells whether there are more
  have tick_eq : ∀ other : Executor, other.limit = executor.limit → other.tick now store =
      other.executeAll now (due.take executor.limit) { hasMore := executor.limit < due.length }
        store := by
    intro other same
    have more : executor.limit < (due.take (executor.limit + 1)).length ↔
        executor.limit < due.length := by
      rw [List.length_take]
      omega
    simp only [tick, found, same, List.take_take, more, Nat.min_eq_left (Nat.le_succ _)]
  have taken : due.take turns.length = turns.map Turn.id := by
    have first := List.prefix_iff_eq_take.1 (ends.given.trans (List.take_prefix _ due))
    rw [List.length_map] at first
    exact first.symm
  obtain ⟨left, before', hdue', -⟩ := Queue.exists_due hold' hafter now
  have dropped : Queue.RunBefore tasks' (now.addSeconds 1) (due.drop turns.length) :=
    before.drop fun id => by simp only [gone, taken]
  refine ⟨due, turns, after, tasks', hdue, takes, ends.of_call_eq tick_eq, hafter, hold', given,
    gone, ?_⟩
  rw [hdue', before'.unique dropped]

/-- A tick on a queue, with a handler that leaves the queue alone, runs the first of the due tasks
in their order, as many as its limit allows. If no error is fatal the report tells of each of
them, and whether there are more. A fatal error is returned; the tasks before have been taken out
of the queue with their outcomes, the others are still there, and nothing else has happened. -/
theorem tick_exact {start : Store} (reliable : start.Reliable)
    (vacant : ∀ key, Queue.Uses key → start.contents.get? key = none) {calls : List Queue.Call}
    (hkeeps : ∀ call ∈ calls, call.KeepsQueue) {executor : Executor}
    (hspares : executor.SparesQueue) (now : UnixTime) :
    let store := Queue.run start calls
    ∃ due turns after, Queue.due store now = .ok due
      ∧ executor.TakesAll now store turns after
      ∧ executor.Ends now (due.take executor.limit) { hasMore := executor.limit < due.length }
          (·.tick now store) turns after
      ∧ (∀ turn ∈ turns, Queue.get store turn.id = .ok (some turn.task))
      ∧ (∀ id, Queue.get after id =
          if id ∈ turns.map Turn.id then .ok none else Queue.get store id)
      ∧ Queue.due after now = .ok (due.drop turns.length) := by
  intro store
  obtain ⟨hstore, tasks, hold⟩ := (Queue.Intact.of_vacant reliable vacant).run hkeeps
  obtain ⟨due, turns, after, tasks', hdue, takes, ends, hafter, hold', given, gone, left⟩ :=
    tick_turns hspares hold hstore now
  refine ⟨due, turns, after, hdue, takes, ends, fun turn hturn => ?_, fun id => ?_, left⟩
  · rw [Queue.get_eq hold.represents hstore, given turn hturn]
  · rw [Queue.get_eq hold'.represents hafter, Queue.get_eq hold.represents hstore, gone]
    exact apply_ite Except.ok _ _ _

/-! ## A backlog, for example -/

/-- Of the first three tasks, which are due together, the second succeeds when it is run, the first
fails, and the third ends the tick. -/
def backlog : List Queue.Call :=
  [.schedule ⟨10⟩ (Utf8.encode "fail"), .schedule ⟨5⟩ (Utf8.encode "print"),
   .schedule ⟨10⟩ (Utf8.encode "fatal"), .schedule ⟨20⟩ []]

/-- A tick with room for two tasks leaves the third for later, and one with room for three fails
at it, when the others are gone. -/
theorem tick_exact_backlog :
    let store := Queue.run .memory backlog
    Queue.due store ⟨10⟩ = .ok [⟨2⟩, ⟨1⟩, ⟨3⟩]
      ∧ (∃ after, (Queue.tracer.withLimit 2).tick ⟨10⟩ store =
            (.ok { completed := [⟨2⟩], failed := [⟨1⟩], hasMore := true }, after)
          ∧ Queue.due after ⟨10⟩ = .ok [⟨3⟩])
      ∧ ∃ after, (Queue.tracer.withLimit 3).tick ⟨10⟩ store =
            (.error (.store (.backend "disk gone")), after)
          ∧ Queue.due after ⟨10⟩ = .ok [⟨3⟩] := by
  intro store
  have keeps : ∀ call ∈ backlog, call.KeepsQueue := by
    simp only [backlog, List.forall_mem_cons]
    have fail : (Utf8.encode "fail").length < UInt64.size := by decide
    have print : (Utf8.encode "print").length < UInt64.size := by decide
    have fatal : (Utf8.encode "fatal").length < UInt64.size := by decide
    have nothing : ([] : Bytes).length < UInt64.size := by decide
    exact ⟨fail, print, fatal, nothing, List.forall_mem_nil _⟩
  have empty : Store.memory.Reliable := Store.reliable_memory _
  have vacant : ∀ key, Queue.Uses key → Store.memory.contents.get? key = none := fun _ _ => rfl
  obtain ⟨reliable, tasks, hold⟩ := (Queue.Intact.of_vacant empty vacant).run keeps
  have lined_up : Queue.due store ⟨10⟩ = .ok [⟨2⟩, ⟨1⟩, ⟨3⟩] :=
    Queue.due_eq_ok reliable (by decide +kernel)
  obtain ⟨ids, -, hdue, found⟩ := Queue.exists_due hold reliable ⟨10⟩
  obtain rfl := Except.ok.inj (hdue.symm.trans lined_up)
  have spares : ∀ limit, (Queue.tracer.withLimit limit).SparesQueue := fun _ =>
    Queue.tracer_sparesQueue
  have ticks := fun limit => tick_exact empty vacant keeps (spares limit) ⟨10⟩
  refine ⟨lined_up, ?_, ?_⟩
  · obtain ⟨due, turns, after, hdue', -, ends, -, -, left⟩ := ticks 2
    obtain rfl := Except.ok.inj (hdue'.symm.trans lined_up)
    have tick_eq : ((Queue.tracer.withLimit 2).tick ⟨10⟩ store).1 =
        .ok { completed := [⟨2⟩], failed := [⟨1⟩], hasMore := true } := by
      rw [tick, found]
      decide +kernel
    cases ends with
    | whole all result =>
      have ended : ((Queue.tracer.withLimit 2).tick ⟨10⟩ store).2 = after := by
        rw [result _ (.refl _ _ _)]
      rw [← turns.length_map (f := Turn.id), all] at left
      exact ⟨after, Prod.ext tick_eq ended, left⟩
    | broken first handled fatal result =>
      rw [result _ (.refl _ _ _)] at tick_eq
      cases tick_eq
  · obtain ⟨due, turns, after, hdue', -, ends, -, -, left⟩ := ticks 3
    obtain rfl := Except.ok.inj (hdue'.symm.trans lined_up)
    have tick_eq : ((Queue.tracer.withLimit 3).tick ⟨10⟩ store).1 =
        .error (.store (.backend "disk gone")) := by
      rw [tick, found]
      decide +kernel
    cases ends with
    | whole all result =>
      rw [result _ (.refl _ _ _)] at tick_eq
      cases tick_eq
    | @broken _ _ failing _ _ first handled fatal result =>
      have ended : ((Queue.tracer.withLimit 3).tick ⟨10⟩ store).2 = after := by
        rw [result _ (.refl _ _ _)]
      refine ⟨after, Prod.ext tick_eq ended, ?_⟩
      -- the task that failed is still queued, so it is the third
      have gone : ∀ id, id = ⟨2⟩ ∨ id = ⟨1⟩ → Queue.get after id = .ok none := by
        rw [← ended, tick, found]
        rintro id (rfl | rfl) <;> decide +kernel
      have waits : ∀ id, id = ⟨2⟩ ∨ id = ⟨1⟩ → ¬ Queue.get after id = .ok (some failing) :=
        fun id hid queued => by cases (gone id hid).symm.trans queued
      rcases turns with _ | ⟨turn, _ | ⟨turn', _ | ⟨turn'', turns⟩⟩⟩
      · obtain ⟨rfl, -⟩ := List.cons.inj first
        exact (waits _ (.inl rfl) handled.queued).elim
      · obtain ⟨-, first⟩ := List.cons.inj first
        obtain ⟨rfl, -⟩ := List.cons.inj first
        exact (waits _ (.inr rfl) handled.queued).elim
      · exact left
      · have length : List.length _ = 3 := congrArg List.length first
        simp only [List.length_append, List.length_map, List.length_cons] at length
        omega

end Executor

end Gazette
