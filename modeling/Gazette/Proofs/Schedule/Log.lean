import Gazette.Proofs.Schedule.Queue

set_option autoImplicit false

/-! # The log of a run of the queue

A run is any list of calls that schedule, cancel and execute tasks, with any handlers. Each call
adds to a log what became of tasks: that one was scheduled, cancelled, or run by a handler and
taken out of the queue. A tick adds what it did up to an error that ends it.

The log is read off the queue and the answers of the calls, not off the handlers. It tells the
truth about them all the same: a task is logged as run exactly if, in the course of one of the
calls, an executor has given this very task to its handler, and the task has left the queue with
what the handler answered (`Queue.ran_mem_log_iff`).
-/

namespace Gazette

/-! ## Points of a run -/

section split

variable {α : Type} {p : List α → α → Prop} {calls : List α} {call : α}

/-- What happens at some call of a run, after the calls before it, does not happen in an empty
run. -/
theorem not_exists_split_nil :
    ¬ ∃ earlier made later, [] = earlier ++ made :: later ∧ p earlier made := by
  rintro ⟨earlier, made, later, split, -⟩
  cases earlier <;> cases split

/-- In a run it happens at the first call or later. -/
theorem exists_split_cons :
    (∃ earlier made later, call :: calls = earlier ++ made :: later ∧ p earlier made) ↔
      p [] call
        ∨ ∃ earlier made later, calls = earlier ++ made :: later ∧ p (call :: earlier) made := by
  constructor
  · rintro ⟨earlier, made, later, split, happens⟩
    cases earlier with
    | nil =>
      cases split
      exact .inl happens
    | cons first earlier =>
      cases split
      exact .inr ⟨earlier, made, later, rfl, happens⟩
  · rintro (happens | ⟨earlier, made, later, rfl, happens⟩)
    · exact ⟨[], call, calls, rfl, happens⟩
    · exact ⟨call :: earlier, made, later, rfl, happens⟩

/-- It happens earlier or at the last call. -/
theorem exists_split_concat :
    (∃ earlier made later, calls ++ [call] = earlier ++ made :: later ∧ p earlier made) ↔
      (∃ earlier made later, calls = earlier ++ made :: later ∧ p earlier made)
        ∨ p calls call := by
  constructor
  · rintro ⟨earlier, made, later, split, happens⟩
    rcases List.eq_nil_or_concat' later with rfl | ⟨between, last, rfl⟩
    · obtain ⟨rfl, same⟩ := List.append_inj' split rfl
      cases same
      exact .inr happens
    · rw [← List.cons_append, ← List.append_assoc] at split
      exact .inl ⟨earlier, made, between, (List.append_inj' split rfl).1, happens⟩
  · rintro (⟨earlier, made, later, rfl, happens⟩ | happens)
    · exact ⟨earlier, made, later ++ [call], by simp, happens⟩
    · exact ⟨calls, call, [], rfl, happens⟩

end split

/-! ## One execution -/

namespace Fired

/-- What the handler answered, if it was asked. -/
def answer? : Fired → Option (Except ScheduleError Unit)
  | .completed => some (.ok ())
  | .failed error => some (.error error)
  | .notDue | .missing => none

/-- The task has left the queue. -/
def leaves : Fired → Bool
  | .completed | .failed _ => true
  | .notDue | .missing => false

theorem leaves_eq (fired : Fired) : fired.leaves = fired.answer?.isSome := by
  cases fired <;> rfl

end Fired

namespace Executor

variable {executor : Executor} {store : Store} {id : RecordId} {task : Task} {now : UnixTime}
  {fired : Fired}

/-- Unless an error ends the run of a task, the handler was given this task, and what became of
the task is what the handler answered. -/
theorem run_answer (h : (executor.run id task now store).1 = .ok fired) :
    fired.answer? = some (store.stage.perform (executor.handler task now)).1 := by
  unfold run at h
  split at h
  · rename_i overlay hrun
    rw [hrun]
    split at h
    · split at h
      · cases h
        rfl
      · cases h
    · cases h
  · rename_i error overlay hrun
    rw [hrun]
    split at h
    · cases h
    · split at h
      · cases h
        rfl
      · cases h

/-- A task that is run leaves the queue, whatever the store, unless an error ends the run. -/
theorem run_leaves (h : (executor.run id task now store).1 = .ok fired) : fired.leaves = true := by
  rw [Fired.leaves_eq, run_answer h, Option.isSome_some]

/-- The task is queued and due, and this is how the handler ends on an overlay of its own. -/
structure Handles (executor : Executor) (id : RecordId) (now : UnixTime) (store : Store)
    (task : Task) (outcome : Except ScheduleError Unit) (overlay : Store) : Prop where
  queued : Queue.get store id = .ok (some task)
  due : ¬ now < task.runAt
  ran : store.stage.perform (executor.handler task now) = (outcome, overlay)

/-- The execution of what is queued under the ID runs this task, and with what the handler answers
to it the task leaves the queue. -/
structure Delivers (executor : Executor) (id : RecordId) (now : UnixTime) (store : Store)
    (task : Task) (fired : Fired) : Prop where
  handled : ∃ outcome overlay, executor.Handles id now store task outcome overlay
    ∧ fired.answer? = some outcome
  executed : executor.execute id now store = executor.run id task now store
  left : (executor.run id task now store).1 = .ok fired

end Executor

/-! ## Events -/

/-- What became of a task. -/
inductive Queue.Event where
  /-- The task was put into the queue. -/
  | scheduled (id : RecordId) (runAt : UnixTime) (payload : Bytes)
  /-- The task was taken out of the queue without being run. -/
  | cancelled (id : RecordId)
  /-- The handler was given this task, and the task left the queue. -/
  | ran (id : RecordId) (task : Task) (now : UnixTime) (fired : Fired)
  deriving DecidableEq, Repr

/-- The task that the event is about. -/
def Queue.Event.id : Queue.Event → RecordId
  | .scheduled id _ _ | .cancelled id | .ran id _ _ _ => id

/-- What became of the task, if it was run. -/
def Queue.Event.fired? : Queue.Event → Option Fired
  | .scheduled _ _ _ | .cancelled _ => none
  | .ran _ _ _ fired => some fired

namespace Executor

/-- What an execution adds to the log: the task that is queued under the ID, if it leaves the queue.
It is the one that the handler is given (`ran_mem_firing_iff`). -/
def firing (executor : Executor) (id : RecordId) (now : UnixTime) (store : Store) :
    List Queue.Event :=
  match Queue.get store id, (executor.execute id now store).1 with
  | .ok (some task), .ok fired => if fired.leaves then [.ran id task now fired] else []
  | _, _ => []

/-- What executions one after another add to the log, up to the first error. -/
def firings (executor : Executor) (now : UnixTime) : List RecordId → Store → List Queue.Event
  | [], _ => []
  | id :: rest, store =>
    executor.firing id now store ++
      match executor.execute id now store with
      | (.ok _, store) => executor.firings now rest store
      | (.error _, _) => []

/-- What a tick adds to the log. -/
def tickFirings (executor : Executor) (now : UnixTime) (store : Store) : List Queue.Event :=
  match firstDue (executor.limit + 1) now store with
  | .ok due => executor.firings now (due.take executor.limit) store
  | .error _ => []

variable {executor : Executor} {store after : Store} {now : UnixTime} {report report' : TickReport}

/-- What is logged of an execution is that its handler was given a task. -/
theorem ran_mem_firing_iff {i id : RecordId} {task : Task} {t : UnixTime} {fired : Fired} :
    .ran i task t fired ∈ executor.firing id now store ↔
      i = id ∧ t = now ∧ executor.Delivers id now store task fired := by
  constructor
  · intro h
    unfold firing at h
    split at h
    · rename_i queued fired' hget hfired
      split at h
      · rename_i left
        obtain ⟨rfl, rfl, rfl, rfl⟩ := Queue.Event.ran.inj (List.mem_singleton.1 h)
        have due : ¬ t < task.runAt := by
          intro early
          rw [execute_early hget early] at hfired
          cases hfired
          cases left
        have executed : executor.execute i t store = executor.run i task t store :=
          execute_due hget due
        rw [executed] at hfired
        exact ⟨rfl, rfl, ⟨_, _, ⟨hget, due, rfl⟩, run_answer hfired⟩, executed, hfired⟩
      · cases h
    · cases h
  · rintro ⟨rfl, rfl, ⟨outcome, overlay, handled, -⟩, executed, left⟩
    simp only [firing, handled.queued, executed, left, run_leaves left, if_true]
    exact List.mem_singleton_self _

/-- Each of several tasks adds to the log what its execution adds on the store that the ones before
it have left. -/
theorem mem_firings_iff {event : Queue.Event} {ids : List RecordId} (report : TickReport) :
    event ∈ executor.firings now ids store ↔
      ∃ done id rest, ids = done ++ id :: rest
        ∧ ∃ report' before, executor.executeAll now done report store = (.ok report', before)
          ∧ event ∈ executor.firing id now before := by
  induction ids generalizing store report with
  | nil => exact iff_of_false List.not_mem_nil not_exists_split_nil
  | cons id rest ih =>
    rw [firings, List.mem_append, exists_split_cons]
    refine or_congr ?_ ?_
    · constructor
      · exact fun first => ⟨report, store, rfl, first⟩
      · rintro ⟨_, _, reached, first⟩
        cases reached
        exact first
    · -- the others have their turns if this one ends without an error
      cases hrun : executor.execute id now store with
      | mk outcome next =>
        cases outcome with
        | ok fired =>
          simp only [executeAll, hrun]
          exact ih (report.add id fired)
        | error error =>
          refine iff_of_false List.not_mem_nil ?_
          rintro ⟨done, i, later, -, report', before, reached, -⟩
          rw [executeAll, hrun] at reached
          cases reached

/-- The report with what a log adds to it. -/
def reported (report : TickReport) (log : List Queue.Event) : TickReport :=
  log.foldl (fun report event => event.fired?.elim report (report.add event.id)) report

theorem reported_firing {id : RecordId} {fired : Fired}
    (h : executor.execute id now store = (.ok fired, after)) (report : TickReport) :
    reported report (executor.firing id now store) = report.add id fired := by
  unfold firing
  rw [h]
  unfold execute at h
  cases hget : Queue.get store id with
  | error error =>
    rw [hget] at h
    cases h
  | ok queued =>
    cases queued with
    | none =>
      rw [hget] at h
      cases h
      rfl
    | some task => cases fired <;> rfl

theorem executeAll_reported {ids : List RecordId}
    (h : executor.executeAll now ids report store = (.ok report', after)) :
    report' = reported report (executor.firings now ids store) := by
  induction ids generalizing report store with
  | nil =>
    cases h
    rfl
  | cons id rest ih =>
    rw [executeAll] at h
    rw [firings, reported, List.foldl_append]
    cases hrun : executor.execute id now store with
    | mk outcome next =>
      rw [hrun] at h
      cases outcome with
      | ok fired =>
        rw [ih h, ← reported_firing hrun report]
        rfl
      | error error => cases h

/-- The report of a tick tells of the tasks that the log tells of. -/
theorem tick_reported (h : executor.tick now store = (.ok report, after)) :
    ∃ hasMore, report = reported { hasMore } (executor.tickFirings now store) := by
  unfold tick at h
  unfold tickFirings
  cases hdue : firstDue (executor.limit + 1) now store with
  | error error =>
    rw [hdue] at h
    cases h
  | ok due =>
    rw [hdue] at h
    exact ⟨_, executeAll_reported h⟩

end Executor

namespace Queue

/-! ## Calls -/

/-- A call on the queue. Each execution brings its own handler. -/
inductive Call where
  | schedule (runAt : UnixTime) (payload : Bytes)
  | cancel (id : RecordId)
  | execute (executor : Executor) (id : RecordId) (now : UnixTime)
  | tick (executor : Executor) (now : UnixTime)

/-- The store after a call, whether it fails or not. -/
def step (store : Store) : Call → Store
  | .schedule runAt payload => (store.perform (schedule runAt payload)).2
  | .cancel id => (store.perform (cancel id)).2
  | .execute executor id now => (executor.execute id now store).2
  | .tick executor now => (executor.tick now store).2

/-- What a call adds to the log. -/
def events (store : Store) : Call → List Event
  | .schedule runAt payload =>
    match (store.perform (schedule runAt payload)).1 with
    | .ok id => [.scheduled id runAt payload]
    | .error _ => []
  | .cancel id =>
    match (store.perform (cancel id)).1 with
    | .ok () => [.cancelled id]
    | .error _ => []
  | .execute executor id now => executor.firing id now store
  | .tick executor now => executor.tickFirings now store

/-- In the course of the call, made on this store, a handler is given the task, and the task leaves
the queue. -/
inductive Call.Delivers (store : Store) (id : RecordId) (task : Task) (now : UnixTime)
    (fired : Fired) : Call → Prop
  | execute (executor : Executor) (delivers : executor.Delivers id now store task fired) :
    Call.Delivers store id task now fired (.execute executor id now)
  /-- The tick comes to the task after those that are due before it. -/
  | tick (executor : Executor) {due done rest : List RecordId} {report : TickReport}
      {before : Store} (hdue : Executor.firstDue (executor.limit + 1) now store = .ok due)
      (turn : due.take executor.limit = done ++ id :: rest)
      (reached : executor.executeAll now done { hasMore := executor.limit < due.length } store =
        (.ok report, before))
      (delivers : executor.Delivers id now before task fired) :
    Call.Delivers store id task now fired (.tick executor now)

/-- The store after some calls. -/
def run (store : Store) (calls : List Call) : Store := calls.foldl step store

/-- The log of some calls. -/
def log (store : Store) : List Call → List Event
  | [] => []
  | call :: rest => events store call ++ log (step store call) rest

section log

variable {store : Store} {id : RecordId} {task : Task} {now : UnixTime} {fired : Fired}

theorem ran_mem_events_iff {call : Call} :
    .ran id task now fired ∈ events store call ↔ call.Delivers store id task now fired := by
  cases call with
  | schedule runAt payload =>
    refine iff_of_false (fun told => ?_) (fun delivers => by cases delivers)
    rw [events] at told
    split at told
    · cases List.mem_singleton.1 told
    · cases told
  | cancel i =>
    refine iff_of_false (fun told => ?_) (fun delivers => by cases delivers)
    rw [events] at told
    split at told
    · cases List.mem_singleton.1 told
    · cases told
  | execute executor i t =>
    rw [events, Executor.ran_mem_firing_iff]
    constructor
    · rintro ⟨rfl, rfl, delivers⟩
      exact .execute executor delivers
    · intro delivered
      cases delivered with
      | execute _ delivers => exact ⟨rfl, rfl, delivers⟩
  | tick executor t =>
    rw [events, Executor.tickFirings]
    cases hdue : Executor.firstDue (executor.limit + 1) t store with
    | error error =>
      refine iff_of_false List.not_mem_nil fun delivered => ?_
      cases delivered with
      | tick _ hdue' => cases hdue.symm.trans hdue'
    | ok due =>
      rw [Executor.mem_firings_iff { hasMore := executor.limit < due.length }]
      constructor
      · rintro ⟨done, i, rest, turn, report, before, reached, told⟩
        obtain ⟨rfl, rfl, delivers⟩ := Executor.ran_mem_firing_iff.1 told
        exact .tick executor hdue turn reached delivers
      · intro delivered
        cases delivered with
        | tick _ hdue' turn reached delivers =>
          cases hdue.symm.trans hdue'
          exact ⟨_, _, _, turn, _, _, reached,
            Executor.ran_mem_firing_iff.2 ⟨rfl, rfl, delivers⟩⟩

/-- The log tells that a task was run exactly if some call of the run has given this task to a
handler and with its answer out of the queue. -/
theorem ran_mem_log_iff {calls : List Call} :
    .ran id task now fired ∈ log store calls ↔
      ∃ earlier call later, calls = earlier ++ call :: later
        ∧ call.Delivers (run store earlier) id task now fired := by
  induction calls generalizing store with
  | nil => exact iff_of_false List.not_mem_nil not_exists_split_nil
  | cons call rest ih =>
    rw [log, List.mem_append, ran_mem_events_iff, ih, exists_split_cons]
    rfl

end log

end Queue

end Gazette
