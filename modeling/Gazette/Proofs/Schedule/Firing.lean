import Gazette.Proofs.Bucket.Erasure
import Gazette.Proofs.Schedule.Delivery

set_option autoImplicit false

/-! # Firing one task

A task that is executed has an effect as a whole or none. If it is not queued or not due, nothing
happens at all and the handler is not asked. If the handler succeeds, everything that it wrote is
in the store afterwards and the two keys of the task are empty. If it fails, whatever it wrote
before is dropped, and the two keys are all that changes; after a fatal error nothing has changed
(`Executor.execute_atomic`).
-/

namespace Gazette

namespace Queue

/-- The keys of a queued task: that of its record, and that of its entry by run time. -/
def TaskKey (id : RecordId) (task : Task) (key : Bytes) : Prop :=
  key = bucket.recordKey id ∨ key = bucket.entryKey bucket.indexes[0] task.runAt.key id

theorem TaskKey.uses {id : RecordId} {task : Task} {key : Bytes} (h : TaskKey id task key) :
    Uses key := by
  refine .inl ?_
  rcases h with rfl | rfl
  · exact .inl (bucket.recordStart_prefix_recordKey id)
  · exact .inr ⟨_, List.mem_singleton_self _, bucket.entryStart_prefix_entryKey _ _ id⟩

theorem keyOf_iff {id : RecordId} {task : Task} (valid : task.validate = .ok ()) {key : Bytes} :
    bucket.KeyOf id task key ↔ TaskKey id task key := by
  refine or_congr_right ?_
  constructor
  · rintro ⟨index, hindex, k, hk, rfl⟩
    obtain rfl := List.mem_singleton.1 hindex
    obtain rfl := Option.some.inj (Except.ok.inj (hk.symm.trans (Task.runAtKey_eq_ok valid)))
    rfl
  · rintro rfl
    exact ⟨_, List.mem_singleton_self _, _, Task.runAtKey_eq_ok valid, rfl⟩

end Queue

namespace Executor

variable {executor : Executor} {store : Store} {tasks : RecordId → Option Task}

/-- Executing the task under this ID does all that belongs to one of its answers, and nothing
else. -/
structure FiresAtomically (executor : Executor) (id : RecordId) (now : UnixTime) (store : Store) :
    Prop where
  missing_iff : (executor.execute id now store).1 = .ok .missing ↔
    Queue.isQueued store id = .ok false
  notDue_iff : (executor.execute id now store).1 = .ok .notDue ↔
    ∃ task, Queue.get store id = .ok (some task) ∧ now < task.runAt
  /-- No handler has a part in these answers. -/
  idle : ∀ fired, fired = .missing ∨ fired = .notDue →
    (executor.execute id now store).1 = .ok fired →
    ∀ other : Executor, other.execute id now store = (.ok fired, store)
  completed : ∀ task overlay, executor.Handles id now store task (.ok ()) overlay →
    ∃ writes after, overlay = .staged store writes
      ∧ executor.execute id now store = (.ok .completed, after)
      ∧ Contents.Emptied (Queue.TaskKey id task) (store.contents.apply writes.operations)
          after.contents
  failed : ∀ task error overlay, executor.Handles id now store task (.error error) overlay →
    error.isFatal = false →
    ∃ after, executor.execute id now store = (.ok (.failed error), after)
      ∧ Contents.Emptied (Queue.TaskKey id task) store.contents after.contents
  fatal : ∀ task error overlay, executor.Handles id now store task (.error error) overlay →
    error.isFatal = true →
    executor.execute id now store = (.error error, store) ∧ Queue.isQueued store id = .ok true

section

variable (h : Queue.bucket.Represents store.contents tasks) (hstore : store.Reliable)
  {id : RecordId} {now : UnixTime}

include h hstore

theorem execute_missing_iff :
    (executor.execute id now store).1 = .ok .missing ↔ Queue.isQueued store id = .ok false := by
  rw [Queue.isQueued_eq h hstore]
  rcases execute_settled h hstore id now with
    ⟨absent, missing⟩ | ⟨task, hqueued, -, waits⟩ | ⟨task, hqueued, -, runs⟩
  · rw [missing, absent]
    exact iff_of_true rfl rfl
  · rw [waits, hqueued]
    exact iff_of_false (fun answer => by cases answer) (fun queued => by cases queued)
  · rw [runs, hqueued]
    refine iff_of_false (fun answer => ?_) (fun queued => by cases queued)
    cases run_leaves answer

theorem execute_notDue_iff :
    (executor.execute id now store).1 = .ok .notDue ↔
      ∃ task, Queue.get store id = .ok (some task) ∧ now < task.runAt := by
  simp only [Queue.get_eq h hstore, Except.ok.injEq]
  rcases execute_settled h hstore id now with
    ⟨absent, missing⟩ | ⟨task, hqueued, early, waits⟩ | ⟨task, hqueued, due, runs⟩
  · rw [missing, absent]
    refine iff_of_false (fun answer => by cases answer) ?_
    rintro ⟨task, queued, -⟩
    cases queued
  · rw [waits]
    exact iff_of_true rfl ⟨task, hqueued, early⟩
  · rw [runs]
    refine iff_of_false (fun answer => by cases run_leaves answer) ?_
    rintro ⟨other, queued, early⟩
    obtain rfl := Option.some.inj (hqueued.symm.trans queued)
    exact due early

theorem execute_idle {fired : Fired} (idle : fired = .missing ∨ fired = .notDue)
    (answer : (executor.execute id now store).1 = .ok fired) (other : Executor) :
    other.execute id now store = (.ok fired, store) := by
  rcases execute_settled h hstore id now with
    ⟨-, missing⟩ | ⟨task, -, -, waits⟩ | ⟨task, -, -, runs⟩
  · rw [missing] at answer
    cases answer
    exact missing other
  · rw [waits] at answer
    cases answer
    exact waits other
  · rw [runs] at answer
    have leaves := run_leaves answer
    rcases idle with rfl | rfl <;> cases leaves

/-- The removal of the task is the last of the handler's writes. -/
theorem execute_completed (hspares : executor.SparesQueue) {task : Task} {overlay : Store}
    (handled : executor.Handles id now store task (.ok ()) overlay) :
    ∃ writes after, overlay = .staged store writes
      ∧ executor.execute id now store = (.ok .completed, after)
      ∧ Contents.Emptied (Queue.TaskKey id task) (store.contents.apply writes.operations)
          after.contents := by
  have hqueued : tasks id = some task :=
    Except.ok.inj ((Queue.get_eq h hstore id).symm.trans handled.queued)
  -- the queue stands on the overlay as it does in the store
  have hoverlay : overlay.Reliable :=
    Store.reliable_of_perform (Store.reliable_stage hstore) handled.ran
  have kept : Queue.bucket.Represents overlay.contents tasks :=
    h.congr fun key hkey => hspares.get?_eq handled.ran (.inl hkey)
  obtain ⟨overlay', hremove, -, emptied⟩ := kept.delete_stored hoverlay hqueued
  obtain ⟨after, hrun, hcontents, -⟩ := run_completed hstore handled.ran hremove
  obtain ⟨writes, staged⟩ := Store.perform_staged store .empty (executor.handler task now)
  have overlay_eq : overlay = .staged store writes := by
    have left : (store.stage.perform (executor.handler task now)).2 = .staged store writes := staged
    rwa [handled.ran] at left
  refine ⟨writes, after, overlay_eq, ?_, ?_⟩
  · exact (execute_due handled.queued handled.due).trans hrun
  · rw [hcontents, ← Store.contents_staged, ← overlay_eq]
    exact emptied.congr fun key => Queue.keyOf_iff (h.sound id task hqueued).valid

theorem execute_failed {task : Task} {error : ScheduleError} {overlay : Store}
    (handled : executor.Handles id now store task (.error error) overlay)
    (hfatal : error.isFatal = false) :
    ∃ after, executor.execute id now store = (.ok (.failed error), after)
      ∧ Contents.Emptied (Queue.TaskKey id task) store.contents after.contents := by
  have hqueued : tasks id = some task :=
    Except.ok.inj ((Queue.get_eq h hstore id).symm.trans handled.queued)
  obtain ⟨after, hremove, -, emptied⟩ := h.delete_stored hstore hqueued
  refine ⟨after, ?_, emptied.congr fun key => Queue.keyOf_iff (h.sound id task hqueued).valid⟩
  exact (execute_due handled.queued handled.due).trans (run_failed handled.ran hfatal hremove)

theorem execute_fatal {task : Task} {error : ScheduleError} {overlay : Store}
    (handled : executor.Handles id now store task (.error error) overlay)
    (hfatal : error.isFatal = true) :
    executor.execute id now store = (.error error, store)
      ∧ Queue.isQueued store id = .ok true := by
  have hqueued : tasks id = some task :=
    Except.ok.inj ((Queue.get_eq h hstore id).symm.trans handled.queued)
  refine ⟨(execute_due handled.queued handled.due).trans (run_fatal handled.ran hfatal), ?_⟩
  rw [Queue.isQueued_eq h hstore, hqueued]
  rfl

end

/-- An execution with a handler that leaves the queue alone does all that belongs to its answer,
or nothing. -/
theorem execute_atomic (hspares : executor.SparesQueue)
    (h : Queue.bucket.Represents store.contents tasks) (hstore : store.Reliable) (id : RecordId)
    (now : UnixTime) : executor.FiresAtomically id now store where
  missing_iff := execute_missing_iff h hstore
  notDue_iff := execute_notDue_iff h hstore
  idle _ := execute_idle h hstore
  completed _ _ := execute_completed h hstore hspares
  failed _ _ _ := execute_failed h hstore
  fatal _ _ _ := execute_fatal h hstore

/-! ## A queue, for example -/

/-- Of four tasks the first succeeds when it is run, the next two fail, and the last is for
later. -/
def lined : List Queue.Call :=
  [.schedule ⟨10⟩ (Utf8.encode "print"), .schedule ⟨5⟩ (Utf8.encode "fail"),
   .schedule ⟨5⟩ (Utf8.encode "fatal"), .schedule ⟨20⟩ []]

/-- The trace of the task that succeeds is in the store, that of the one that fails is not, and
the fatal error leaves the store as it was. -/
theorem execute_atomic_lined :
    let store := Queue.run .memory lined
    let printed : Task := ⟨some ⟨1⟩, ⟨10⟩, Utf8.encode "print"⟩
    let rejected : Task := ⟨some ⟨2⟩, ⟨5⟩, Utf8.encode "fail"⟩
    Queue.tracer.execute ⟨9⟩ ⟨10⟩ store = (.ok .missing, store)
      ∧ Queue.tracer.execute ⟨4⟩ ⟨10⟩ store = (.ok .notDue, store)
      ∧ (∃ after, Queue.tracer.execute ⟨1⟩ ⟨10⟩ store = (.ok .completed, after)
          ∧ after.contents.get? (Recorder.traceKey printed) = some (Utf8.encode "10")
          ∧ after.contents.get? (Queue.bucket.recordKey ⟨1⟩) = none)
      ∧ (∃ after, Queue.tracer.execute ⟨2⟩ ⟨10⟩ store =
            (.ok (.failed (.handler "rejected")), after)
          ∧ after.contents.get? (Recorder.traceKey rejected) = none
          ∧ after.contents.get? (Queue.bucket.recordKey ⟨2⟩) = none)
      ∧ Queue.tracer.execute ⟨3⟩ ⟨10⟩ store = (.error (.store (.backend "disk gone")), store) := by
  intro store printed rejected
  have proper : ∀ call ∈ lined, call.Proper := by
    simp only [lined, List.forall_mem_cons]
    have print : (Utf8.encode "print").length < UInt64.size := by decide
    have fail : (Utf8.encode "fail").length < UInt64.size := by decide
    have fatal : (Utf8.encode "fatal").length < UInt64.size := by decide
    have nothing : ([] : Bytes).length < UInt64.size := by decide
    exact ⟨print, fail, fatal, nothing, List.forall_mem_nil _⟩
  have empty : Queue.Tracks .memory [] .empty :=
    ⟨Store.reliable_memory _, Queue.holds_of_vacant fun _ _ => rfl, .empty⟩
  obtain ⟨tasks, tracks⟩ := empty.run proper
  have atomic := fun id => execute_atomic Queue.tracer_sparesQueue tracks.hold.represents
    tracks.reliable id ⟨10⟩
  have apart : ∀ id task, ¬ Queue.TaskKey id task (Recorder.traceKey task) := fun id task key =>
    Queue.not_uses_traceKey task key.uses
  have missing : (Queue.tracer.execute ⟨9⟩ ⟨10⟩ store).1 = .ok .missing :=
    (atomic ⟨9⟩).missing_iff.2 (by decide +kernel)
  have early : (Queue.tracer.execute ⟨4⟩ ⟨10⟩ store).1 = .ok .notDue :=
    (atomic ⟨4⟩).notDue_iff.2 ⟨⟨some ⟨4⟩, ⟨20⟩, []⟩, by decide +kernel, by decide⟩
  refine ⟨(atomic ⟨9⟩).idle _ (.inl rfl) missing _, (atomic ⟨4⟩).idle _ (.inr rfl) early _,
    ?_, ?_, ?_⟩
  · let overlay := (store.stage.perform (Queue.tracer.handler printed ⟨10⟩)).2
    have handled : Queue.tracer.Handles ⟨1⟩ ⟨10⟩ store printed (.ok ()) overlay :=
      ⟨by decide +kernel, by decide, Prod.ext (by decide +kernel) rfl⟩
    obtain ⟨writes, after, staged, hrun, emptied⟩ := (atomic ⟨1⟩).completed _ _ handled
    refine ⟨after, hrun, ?_, emptied.gone _ (.inl rfl)⟩
    rw [emptied.kept _ (apart ⟨1⟩ printed), ← Store.contents_staged, ← staged]
    decide +kernel
  · let overlay := (store.stage.perform (Queue.tracer.handler rejected ⟨10⟩)).2
    have handled : Queue.tracer.Handles ⟨2⟩ ⟨10⟩ store rejected (.error (.handler "rejected"))
        overlay := ⟨by decide +kernel, by decide, Prod.ext (by decide +kernel) rfl⟩
    obtain ⟨after, hrun, emptied⟩ := (atomic ⟨2⟩).failed _ _ _ handled rfl
    refine ⟨after, hrun, ?_, emptied.gone _ (.inl rfl)⟩
    rw [emptied.kept _ (apart ⟨2⟩ rejected)]
    decide +kernel
  · let task : Task := ⟨some ⟨3⟩, ⟨5⟩, Utf8.encode "fatal"⟩
    let overlay := (store.stage.perform (Queue.tracer.handler task ⟨10⟩)).2
    have handled : Queue.tracer.Handles ⟨3⟩ ⟨10⟩ store task (.error (.store (.backend "disk gone")))
        overlay := ⟨by decide +kernel, by decide, Prod.ext (by decide +kernel) rfl⟩
    exact ((atomic ⟨3⟩).fatal _ _ _ handled rfl).1

end Executor

end Gazette
