import Gazette.Blog.Router
import Gazette.Schedule.Executor

set_option autoImplicit false

/-! # The application

The blog as a state machine on a store. A request is delivered on an overlay, which is committed
as one batch if the handler succeeds and dropped if it fails. Once per block the tasks that are
due are run, each of them on an overlay of its own.
-/

namespace Gazette

/-- A blog with its settings and the scheduler that it puts deletions into. Tasks are run from
the queue, so the scheduler must put them there. -/
structure App where
  config : Config
  scheduler : Scheduler := Queue.scheduler

namespace App

/-- The buckets, with the page size of the settings. -/
def collections (app : App) : Collections := ⟨app.config.scanPageSize.toNat⟩

/-- Schedules and cancels deletions of articles in these buckets. -/
def deletions (app : App) : Deletions := ⟨app.scheduler, app.collections⟩

/-- Serves ordinary requests. -/
def router (app : App) : Router :=
  (Router.addAll {} (Router.mainRoutes app.collections app.deletions app.config.gas)).2

/-- Serves scheduled tasks. -/
def taskRouter (app : App) : Router := (Router.addAll {} (Router.taskRoutes app.collections)).2

/-- Run a scheduled task: its payload is a message that nobody signed. -/
def runTask (app : App) : TaskHandler := fun task now => do
  let message ← Tx.read fun _ =>
    (Message.codec.read task.payload).mapError fun fault => (BlogError.codec fault).toScheduleError
  let _ ← Tx.mapError BlogError.toScheduleError
    (app.taskRouter.deliver (.unsigned now) message)

/-- Runs the scheduled tasks, at most as many at a tick as the settings allow. -/
def executor (app : App) : Executor :=
  Executor.withLimit { handler := app.runTask } app.config.maxTasksPerTick.toNat

/-- What a message costs. The store is not changed. -/
def check (app : App) (ctx : Context) (message : Message) (store : Store) :
    Except BlogError UInt64 :=
  app.router.check ctx message store.stage

/-- Do what a message asks for. On failure nothing is written. -/
def deliver (app : App) (ctx : Context) (message : Message) (store : Store) :
    Except BlogError (Option RecordId) × Store :=
  store.transact .store (app.router.deliver ctx message)

/-- Run the scheduled tasks that are due. -/
def tick (app : App) (now : UnixTime) (store : Store) : Except BlogError TickReport × Store :=
  let (outcome, store) := app.executor.tick now store
  (outcome.mapError .schedule, store)

/-- Run one scheduled task. -/
def fire (app : App) (taskId : RecordId) (now : UnixTime) (store : Store) :
    Except BlogError Fired × Store :=
  let (outcome, store) := app.executor.execute taskId now store
  (outcome.mapError .schedule, store)

/-- The application as shown in diagnostics. -/
def debug (app : App) : String :=
  "BlogApp \x7b config: " ++ app.config.debug ++ ", router: " ++ app.router.debug
    ++ ", cron: " ++ app.executor.debug ++ " \x7d"

end App

end Gazette
