import Gazette.Proofs.Bucket.Table
import Gazette.Proofs.UnixTime
import Gazette.Proofs.Wire
import Gazette.Schedule.Executor

set_option autoImplicit false

/-! # The queue as a table

The queued tasks are a table. Scheduling a task adds it under the next ID, cancelling one takes it
away, and either changes nothing if it fails (`Queue.schedule_cases`, `Queue.cancel_cases`). The
payload of a task is not subject to any rule; its length must fit the number that it is written
with. What a handler did with success is committed together with the removal of the task
(`Executor.run_completed`); if it failed, the task alone is removed (`Executor.run_failed`). Whether
a task is run at all is settled before its handler is asked (`Executor.execute_settled`).
-/

namespace Gazette

/-! ## Tasks -/

instance : LawfulRecord Task where
  id_withId _ _ := rfl

theorem Task.readable {task : Task} (h : task.payload.length < UInt64.size) :
    Record.Readable task := by
  have reads : Task.codec.ReadsBack task := by
    refine Codec.ReadsBack.map ?_ rfl
    exact (Codec.readsBack_optionalId _).pair
      ((Codec.readsBack_time _).pair (Codec.readsBack_counted .endOfInput h))
  exact reads.read_encode

theorem Task.storable {task : Task} (h : task.payload.length < UInt64.size) :
    Record.Storable task := by
  intro id _
  -- an ID does not change the payload
  rcases Record.identified_cases task id with same | given
  · rw [same]
    exact readable h
  · rw [given]
    exact readable h

theorem Task.time_of_valid {task : Task} (valid : task.validate = .ok ()) :
    Check.time task.runAt = .ok () := by
  have checked := ValidationErrors.result_ofChecks.1 valid
  simp only [List.forall_mem_cons] at checked
  exact checked.2.1

theorem Task.runAtKey_eq_ok {task : Task} (valid : task.validate = .ok ()) :
    task.runAtKey = .ok (some task.runAt.key) := by
  rw [runAtKey, UnixTime.keyBytes?_of_time (time_of_valid valid)]

theorem Task.length_of_runAtKey {task : Task} {k : Bytes}
    (h : task.runAtKey = .ok (some k)) : k.length = 8 := by
  unfold runAtKey at h
  split at h
  · rename_i key hkey
    cases h
    exact UnixTime.length_of_keyBytes? hkey
  · cases h

namespace Queue

variable {store : Store} {contents contents' : Contents} {tasks : Table Task} {id : RecordId}

/-! ## Keys -/

/-- The key is one of the queue's: that of a task or of an entry, or that of the counter. -/
def Uses (key : Bytes) : Prop := bucket.Covers key ∨ key = bucket.counter.key

theorem holds_of_vacant (h : ∀ key, Uses key → contents.get? key = none) :
    bucket.Holds contents .empty where
  represents := Bucket.represents_nothing fun key hkey => h key (.inl hkey)
  issued := .inr ⟨h _ (.inr rfl), rfl⟩

/-- What happens under other keys does not matter to the queue. -/
theorem holds_congr (h : bucket.Holds contents tasks)
    (hsame : ∀ key, Uses key → contents'.get? key = contents.get? key) :
    bucket.Holds contents' tasks where
  represents := h.represents.congr fun key hkey => hsame key (.inl hkey)
  issued := h.issued.congr (hsame _ (.inr rfl))

/-! ## Calls -/

section reads

variable {records : RecordId → Option Task}

theorem get_eq (h : bucket.Represents store.contents records) (hstore : store.Reliable)
    (id : RecordId) : get store id = .ok (records id) :=
  mapError_eq_ok.2 (h.get_eq hstore id)

theorem isQueued_eq (h : bucket.Represents store.contents records) (hstore : store.Reliable)
    (id : RecordId) : isQueued store id = .ok (records id).isSome := by
  rw [isQueued, Bucket.has, Store.has_eq hstore, h.get?_recordKey id, Option.isSome_map]
  rfl

end reads

/-- What is scheduled is put into the bucket. -/
theorem schedule_eq_ok {runAt : UnixTime} {payload : Bytes} {after : Store}
    (h : store.perform (schedule runAt payload) = (.ok id, after)) :
    ∃ task, store.perform (bucket.put { id := none, runAt, payload }) =
      (.ok (id, task), after) := by
  unfold schedule at h
  dsimp only at h
  split at h
  · obtain ⟨⟨⟩, mid, hfail, -⟩ := Store.perform_bind_eq_ok.1 h
    cases hfail
  · obtain ⟨answer, mid, hput, h⟩ := Store.perform_bind_eq_ok.1 h
    cases h
    exact ⟨answer.2, Store.perform_mapError_eq_ok.1 hput⟩

/-- What is cancelled is deleted from the bucket, and was there. -/
theorem cancel_eq_ok {after : Store} (h : store.perform (cancel id) = (.ok (), after)) :
    store.perform (bucket.delete id) = (.ok true, after) := by
  unfold cancel at h
  obtain ⟨present, mid, hremove, h⟩ := Store.perform_bind_eq_ok.1 h
  rw [Store.perform_mapError_eq_ok, remove] at hremove
  cases present with
  | false => cases h
  | true =>
    cases h
    exact hremove

/-- Scheduling fails and changes nothing, or queues the task under the next ID. -/
theorem schedule_cases (h : bucket.Holds store.contents tasks) (hstore : store.Reliable)
    (runAt : UnixTime) {payload : Bytes} (hpayload : payload.length < UInt64.size) :
    (∃ error, store.perform (schedule runAt payload) = (.error error, store)) ∨
      ∃ after, store.perform (schedule runAt payload) = (.ok tasks.next, after)
        ∧ tasks.HasRoom ∧ after.Reliable
        ∧ bucket.Holds after.contents (tasks.add { id := none, runAt, payload }) := by
  unfold schedule
  split
  · exact .inl ⟨_, Store.perform_bind_of_error rfl _⟩
  · rcases Bucket.put_cases bucket hstore.acceptsWrites { id := none, runAt, payload } with
      ⟨error, hput⟩ | ⟨plan, after, -, hput, -⟩
    · refine .inl ⟨.store error, Store.perform_bind_of_error ?_ _⟩
      rw [Store.perform_mapError, hput]
      rfl
    · obtain ⟨hid, room, hafter, hold, -⟩ := h.put_new hstore (Task.storable hpayload) rfl hput
      refine .inr ⟨after, ?_, room, hafter, hold⟩
      refine Store.perform_bind_eq_ok.2 ⟨_, after, Store.perform_mapError_eq_ok.2 hput, ?_⟩
      rw [← hid]
      rfl

/-- Cancelling fails because no such task is queued, or takes it away. -/
theorem cancel_cases (h : bucket.Holds store.contents tasks) (hstore : store.Reliable)
    (id : RecordId) :
    (tasks.records id = none
        ∧ store.perform (cancel id) = (.error (.taskNotFound id), store)) ∨
      ∃ task after, tasks.records id = some task ∧ store.perform (cancel id) = (.ok (), after)
        ∧ after.Reliable ∧ bucket.Holds after.contents (tasks.erase id) := by
  unfold cancel remove
  cases hrecord : tasks.records id with
  | none =>
    refine .inl ⟨rfl, ?_⟩
    rw [Store.perform_bind, Store.perform_mapError, h.represents.delete_absent hstore hrecord]
    rfl
  | some task =>
    obtain ⟨after, hdelete, hafter, hold, -⟩ := h.delete_eq hstore id
    rw [hrecord] at hdelete
    refine .inr ⟨task, after, rfl, ?_, hafter, hold⟩
    rw [Store.perform_bind, Store.perform_mapError, hdelete]
    rfl

end Queue

/-! ## Running a task -/

namespace Executor

variable {executor : Executor} {store overlay overlay' after : Store} {id : RecordId} {task : Task}
  {now : UnixTime} {error : ScheduleError} {found : Bool}

/-- The handler and the removal from the queue are one step on the overlay, which is committed as
a whole. -/
theorem run_completed (hstore : store.Reliable)
    (hrun : store.stage.perform (executor.handler task now) = (.ok (), overlay))
    (hremove : overlay.perform (Queue.remove id) = (.ok found, overlay')) :
    ∃ after, executor.run id task now store = (.ok .completed, after)
      ∧ after.contents = overlay'.contents ∧ after.Reliable := by
  have both : store.stage.perform
      (executor.handler task now >>= fun _ => Tx.mapError .store (Queue.remove id)) =
        (.ok found, overlay') :=
    Store.perform_bind_eq_ok.2 ⟨(), overlay, hrun, Store.perform_mapError_eq_ok.2 hremove⟩
  obtain ⟨after, hcommit, hcontents, hafter⟩ := Store.commit_perform_stage hstore
    (executor.handler task now >>= fun _ => Tx.mapError ScheduleError.store (Queue.remove id))
  rw [both] at hcommit hcontents
  refine ⟨after, ?_, hcontents, hafter⟩
  simp only [run, hrun, hremove, hcommit]

/-- The overlay of a handler that fails is dropped, and the task is removed from the store. -/
theorem run_failed (hrun : store.stage.perform (executor.handler task now) = (.error error, overlay))
    (hfatal : error.isFatal = false)
    (hremove : store.perform (Queue.remove id) = (.ok found, after)) :
    executor.run id task now store = (.ok (.failed error), after) := by
  simp only [run, hrun, hfatal, Bool.false_eq_true, if_false, hremove]

theorem run_fatal (hrun : store.stage.perform (executor.handler task now) = (.error error, overlay))
    (hfatal : error.isFatal = true) :
    executor.run id task now store = (.error error, store) := by
  simp only [run, hrun, hfatal, if_true]

/-- A run fails and changes nothing, or takes the task out of the queue that the handler left, or
out of the queue as it was if the handler failed. -/
theorem run_outcomes {tasks kept : Table Task} (h : Queue.bucket.Holds store.contents tasks)
    (hstore : store.Reliable)
    (hkept : Queue.bucket.Holds (store.stage.perform (executor.handler task now)).2.contents kept)
    (id : RecordId) :
    (∃ error, executor.run id task now store = (.error error, store)) ∨
      (∃ after, executor.run id task now store = (.ok .completed, after) ∧ after.Reliable
        ∧ Queue.bucket.Holds after.contents (kept.erase id)) ∨
      ∃ error after, executor.run id task now store = (.ok (.failed error), after)
        ∧ after.Reliable ∧ Queue.bucket.Holds after.contents (tasks.erase id) := by
  cases hrun : store.stage.perform (executor.handler task now) with
  | mk outcome overlay =>
    cases outcome with
    | ok done =>
      -- the removal is on the overlay of the handler
      rw [hrun] at hkept
      have hoverlay : overlay.Reliable :=
        Store.reliable_of_perform (Store.reliable_stage hstore) hrun
      obtain ⟨overlay', hremove, -, hold, -⟩ := hkept.delete_eq hoverlay id
      obtain ⟨after, hcompleted, hcontents, hafter⟩ := run_completed hstore hrun hremove
      exact .inr (.inl ⟨after, hcompleted, hafter, hcontents ▸ hold⟩)
    | error error =>
      cases hfatal : error.isFatal with
      | true => exact .inl ⟨error, run_fatal hrun hfatal⟩
      | false =>
        obtain ⟨after, hremove, hafter, hold, -⟩ := h.delete_eq hstore id
        exact .inr (.inr ⟨error, after, run_failed hrun hfatal hremove, hafter, hold⟩)

/-- Only a task that is queued and due is run. -/
theorem execute_absent (hget : Queue.get store id = .ok none) :
    executor.execute id now store = (.ok .missing, store) := by
  simp only [execute, hget]

theorem execute_early (hget : Queue.get store id = .ok (some task)) (early : now < task.runAt) :
    executor.execute id now store = (.ok .notDue, store) := by
  simp only [execute, hget, if_pos early]

theorem execute_due (hget : Queue.get store id = .ok (some task)) (due : ¬ now < task.runAt) :
    executor.execute id now store = executor.run id task now store := by
  simp only [execute, hget, if_neg due]

/-- Whether a task is run is settled before any handler is asked. -/
theorem execute_settled {tasks : RecordId → Option Task}
    (h : Queue.bucket.Represents store.contents tasks) (hstore : store.Reliable) (id : RecordId)
    (now : UnixTime) :
    (tasks id = none ∧ ∀ executor, execute executor id now store = (.ok .missing, store)) ∨
      (∃ task, tasks id = some task ∧ now < task.runAt
        ∧ ∀ executor, execute executor id now store = (.ok .notDue, store)) ∨
      ∃ task, tasks id = some task ∧ ¬ now < task.runAt
        ∧ ∀ executor, execute executor id now store = run executor id task now store := by
  have hget := Queue.get_eq h hstore id
  cases hqueued : tasks id with
  | none =>
    rw [hqueued] at hget
    exact .inl ⟨rfl, fun _ => execute_absent hget⟩
  | some task =>
    rw [hqueued] at hget
    by_cases early : now < task.runAt
    · exact .inr (.inl ⟨task, rfl, early, fun _ => execute_early hget early⟩)
    · exact .inr (.inr ⟨task, rfl, early, fun _ => execute_due hget early⟩)

end Executor

end Gazette
