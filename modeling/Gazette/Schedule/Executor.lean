import Gazette.Schedule.Queue

set_option autoImplicit false

/-! # Running due tasks

A handler runs a task on an overlay of its own. If it succeeds, its writes and the removal of the
task from the queue reach the store as one batch. If it fails, its writes are dropped and the
task with them; only an error that is fatal leaves the task in the queue and ends the tick.
-/

namespace Gazette

/-- Runs the payload of a task that is due. -/
abbrev TaskHandler := Task → UnixTime → Tx ScheduleError Unit

/-- What became of one task. -/
inductive Fired where
  /-- The handler succeeded and its writes were committed. -/
  | completed
  /-- The handler failed, its writes were dropped, and the task is gone. -/
  | failed (error : ScheduleError)
  /-- The task is queued for a later time. -/
  | notDue
  /-- No such task is queued. -/
  | missing
  deriving DecidableEq, Repr

/-- What one tick did. -/
structure TickReport where
  completed : List RecordId := []
  failed : List RecordId := []
  /-- More tasks are due than one tick may run. -/
  hasMore : Bool := false
  deriving DecidableEq, Repr

namespace TickReport

/-- The number of tasks that left the queue. -/
def fired (report : TickReport) : Nat := report.completed.length + report.failed.length

/-- The report with the outcome of one more task. -/
def add (report : TickReport) (id : RecordId) : Fired → TickReport
  | .completed => { report with completed := report.completed ++ [id] }
  | .failed _ => { report with failed := report.failed ++ [id] }
  | .notDue | .missing => report

end TickReport

/-- Runs due tasks with one handler, at most `limit` of them at a tick. -/
structure Executor where
  handler : TaskHandler
  /-- A natural number, so there is always the next one, which is how many tasks a tick asks the
  queue for. It stands for a machine word below the greatest; adding one to the greatest word would
  overflow, and nothing is said about an executor with that limit. -/
  limit : Nat := 100
  limit_pos : 0 < limit := by decide

namespace Executor

/-- The executor with another limit; at least one task is run at a tick. -/
def withLimit (executor : Executor) (limit : Nat) : Executor where
  handler := executor.handler
  limit := max limit 1
  limit_pos := max_one_pos limit

/-- The executor as shown in diagnostics. -/
def debug (executor : Executor) : String :=
  "CronExecutor \x7b max_tasks_per_tick: " ++ toString executor.limit ++ " \x7d"

/-- Run a task that is due. -/
def run (executor : Executor) (id : RecordId) (task : Task) (now : UnixTime) (store : Store) :
    Except ScheduleError Fired × Store :=
  match store.stage.perform (executor.handler task now) with
  | (.ok (), overlay) =>
    match overlay.perform (Queue.remove id) with
    | (.ok _, overlay) =>
      match overlay.commit with
      | (.ok (), store) => (.ok .completed, store)
      | (.error error, store) => (.error (.store error), store)
    | (.error error, _) => (.error (.store error), store)
  | (.error error, _) =>
    if error.isFatal then (.error error, store)
    else
      match store.perform (Queue.remove id) with
      | (.ok _, store) => (.ok (.failed error), store)
      | (.error error, store) => (.error (.store error), store)

/-- Run one task by its ID, if it is queued and due. -/
def execute (executor : Executor) (id : RecordId) (now : UnixTime) (store : Store) :
    Except ScheduleError Fired × Store :=
  match Queue.get store id with
  | .error error => (.error error, store)
  | .ok none => (.ok .missing, store)
  | .ok (some task) =>
    if now < task.runAt then (.ok .notDue, store) else executor.run id task now store

/-- The first `count` tasks that are due at `now`. -/
def firstDue (count : Nat) (now : UnixTime) (store : Store) :
    Except ScheduleError (List RecordId) := do
  let scan ← Queue.dueScan now
  (((scan.items store).take count).mapM id).mapError .store

/-- Run tasks one after another and add what becomes of them to a report, up to the first error. -/
def executeAll (executor : Executor) (now : UnixTime) :
    List RecordId → TickReport → Store → Except ScheduleError TickReport × Store
  | [], report, store => (.ok report, store)
  | id :: rest, report, store =>
    match executor.execute id now store with
    | (.ok fired, store) => executor.executeAll now rest (report.add id fired) store
    | (.error error, store) => (.error error, store)

/-- Run the tasks that are due at `now`, earliest first, up to the limit. Which tasks these are
is settled before the first one runs. -/
def tick (executor : Executor) (now : UnixTime) (store : Store) :
    Except ScheduleError TickReport × Store :=
  match firstDue (executor.limit + 1) now store with
  | .error error => (.error error, store)
  | .ok due =>
    executor.executeAll now (due.take executor.limit) { hasMore := executor.limit < due.length }
      store

end Executor

end Gazette
