import Gazette.Schedule.Executor

set_option autoImplicit false

/-! # A recording task handler

A handler for trying out the executor. It leaves a trace of every task that it runs and then does
what the payload says:

    fail...                fails
    fatal...               fails with an error of the device
    cancel:ID              cancels another task
    sched:SECONDS:PAYLOAD  schedules another task

Any other payload asks for nothing.
-/

namespace Gazette.Recorder

/-- What a payload asks for. -/
inductive Request where
  | fail
  | fatal
  | cancel (id : RecordId)
  | schedule (runAt : UnixTime) (payload : Bytes)
  | nothing

/-- What follows `start` in a byte string that begins with it. -/
def afterStart? (start : String) (b : Bytes) : Option Bytes :=
  (Utf8.encode start).isPrefixOf? b

/-- The number of seconds that a byte string writes in decimal. -/
def seconds? (b : Bytes) : Option Int64 := do
  let s ← (Utf8.decode b).toOption
  Int64.ofInt <$> s.toInt?

/-- Read a request to schedule: the run time and the payload stand on both sides of the first
colon. -/
def scheduleRequest? (b : Bytes) : Option Request := do
  let digits := b.takeWhile (· ≠ 0x3a)
  let payload ← afterStart? ":" (b.drop digits.length)
  return .schedule ⟨← seconds? digits⟩ payload

/-- Read a request to cancel. -/
def cancelRequest? (b : Bytes) : Option Request := do
  let digits ← (Utf8.decode b).toOption
  .cancel <$> (RecordId.ofHex digits).toOption

/-- Read a payload. -/
def requestOf (payload : Bytes) : Request :=
  if (afterStart? "fail" payload).isSome then .fail
  else if (afterStart? "fatal" payload).isSome then .fatal
  else
    ((afterStart? "cancel:" payload).bind cancelRequest?
      <|> (afterStart? "sched:" payload).bind scheduleRequest?).getD .nothing

/-- The key of the trace of a task. -/
def traceKey (task : Task) : Bytes := Utf8.encode "out:" ++ task.payload

/-- Leave a trace with the time of the run, then do what the payload asks for. -/
def handler : TaskHandler := fun task now => do
  (Tx.write [.set (traceKey task) (Utf8.encode now.text)]).mapError .store
  match requestOf task.payload with
  | .fail => Tx.fail (.handler "rejected")
  | .fatal => Tx.fail (.store (.backend "disk gone"))
  | .cancel id => Queue.cancel id
  | .schedule runAt payload => discard (Queue.schedule runAt payload)
  | .nothing => return ()

/-- The queue behind a front end that schedules as usual but cannot cancel. -/
def withoutCancel : Scheduler where
  schedule := Queue.schedule
  cancel _ := Tx.fail (.handler "scheduler unavailable")

end Gazette.Recorder
