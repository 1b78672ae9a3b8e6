import Gazette.Bucket.IndexScan

set_option autoImplicit false

/-! # The task queue

A task is a payload to be delivered at or after its run time. Queued tasks are records of a
bucket with one index, by run time, so due tasks are found in the order of their run times and,
at the same second, in the order in which they were scheduled.

`Scheduler` is what an application sees of a queue: it can put a task in and take it out. The
queue itself is one (`Queue.scheduler`); others may stand in front of it.
-/

namespace Gazette

/-! ## Errors -/

/-- Why scheduling, cancelling or running a task failed. -/
inductive ScheduleError where
  /-- No queued task has this ID: it was never scheduled, or has run, or was cancelled. -/
  | taskNotFound (id : RecordId)
  /-- A time before the epoch cannot be a run time. -/
  | negativeRunTime (time : UnixTime)
  /-- The handler of a task refused it. -/
  | handler (reason : String)
  | store (error : StoreError)
  deriving DecidableEq, Repr

namespace ScheduleError

/-- The text of the error. -/
def message : ScheduleError → String
  | .taskNotFound id => s!"scheduled task {id.toHex} not found"
  | .negativeRunTime time => s!"invalid run time: {time.text} is negative"
  | .handler reason => "task handler failed: " ++ reason
  | .store error => error.message

/-- Whether the error must end the enclosing block. -/
def isFatal : ScheduleError → Bool
  | .store error => error.isFatal
  | _ => false

end ScheduleError

/-! ## Tasks -/

/-- A queued task. -/
structure Task where
  id : Option RecordId
  runAt : UnixTime
  /-- Handed to the handler as it is. -/
  payload : Bytes
  deriving DecidableEq, Repr

namespace Task

/-- A queued task has an ID and runs after the epoch. -/
def validate (task : Task) : Except ValidationErrors Unit :=
  (ValidationErrors.ofChecks
    [("ID", Check.assigned task.id), ("RunAt", Check.time task.runAt)]).result

/-- The fields in their order. -/
def codec : Codec Task :=
  ((Codec.optional .recordId).pair (Codec.time.pair .blob)).map
    (fun (id, runAt, payload) => { id, runAt, payload })
    (fun task => (task.id, task.runAt, task.payload))

/-- Tasks are indexed by run time. -/
def runAtKey (task : Task) : Except String (Option Bytes) :=
  match task.runAt.keyBytes? with
  | some key => .ok (some key)
  | none => .error ("negative run time " ++ task.runAt.text)

instance : Record Task where
  id := Task.id
  withId task id := { task with id := some id }
  validate := validate
  codec := codec

end Task

/-! ## Queues -/

/-- What an application sees of a queue. -/
structure Scheduler where
  /-- Queue a payload for delivery at a time, and give the ID of the task. -/
  schedule : UnixTime → Bytes → Tx ScheduleError RecordId
  /-- Take a queued task out of the queue. -/
  cancel : RecordId → Tx ScheduleError Unit

namespace Queue

/-- The queued tasks. -/
def bucket : Bucket Task where
  name := { text := "crontask" }
  indexes := [{ name := { text := "runat" }, unique := false, extract := Task.runAtKey }]

/-- The queued task with this ID, if there is one. -/
def get (store : Store) (id : RecordId) : Except ScheduleError (Option Task) :=
  (bucket.get store id).mapError .store

/-- Whether a task is queued. -/
def isQueued (store : Store) (id : RecordId) : Except ScheduleError Bool :=
  (bucket.has store id).mapError .store

/-- A walk over the tasks that are due at `now`, earliest first. Before the epoch nothing is
due. -/
def dueScan (now : UnixTime) : Except ScheduleError IndexScan :=
  let upper := (now.addSeconds 1).keyBytes?.getD []
  (bucket.queryRange "runat" [] (some upper)).mapError .store

/-- The tasks that are due at `now`, earliest first. -/
def due (store : Store) (now : UnixTime) : Except ScheduleError (List RecordId) := do
  let scan ← dueScan now
  (scan.ids store).mapError .store

/-- Put a task into the queue. -/
def schedule (runAt : UnixTime) (payload : Bytes) : Tx ScheduleError RecordId := do
  if runAt.isNegative then Tx.fail (.negativeRunTime runAt)
  let (id, _) ← (bucket.put { id := none, runAt, payload }).mapError .store
  return id

/-- Take a task out of the queue, if it is there. -/
def remove (id : RecordId) : Tx StoreError Bool := bucket.delete id

/-- Take a task, which must be there, out of the queue. -/
def cancel (id : RecordId) : Tx ScheduleError Unit := do
  unless ← (remove id).mapError .store do
    Tx.fail (.taskNotFound id)

/-- The queue as an application sees it. -/
def scheduler : Scheduler := { schedule, cancel }

end Queue

end Gazette
