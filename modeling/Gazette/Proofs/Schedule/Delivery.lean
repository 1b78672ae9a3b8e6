import Gazette.Proofs.Schedule.Log
import Gazette.Proofs.Store.Footprint
import Gazette.Proofs.Store.RangeScan
import Gazette.Sample.Recorder

set_option autoImplicit false

/-! # Every task is delivered once at most

The log of a run, with any handlers that keep away from the keys of the queue, tells for each ID
one of four stories (`Queue.Life`), and what is in the queue at the end is what the story says. So
a task is run once at most, no earlier than scheduled, with the payload that it was scheduled with,
and not after it was cancelled (`Queue.History.delivered_at_most_once`). IDs are not issued twice,
so a task that has left the queue never comes back.
-/

namespace Gazette

/-! ## One execution -/

namespace Executor

/-- The handler writes to no key of the queue. -/
def SparesQueue (executor : Executor) : Prop :=
  ∀ task now, (executor.handler task now).WritesOutside Queue.Uses

variable {executor : Executor} {store : Store} {tasks : Table Task}

/-- What the handler leaves of the queue on its overlay is all of it. -/
theorem SparesQueue.get?_eq (hspares : executor.SparesQueue) {task : Task} {now : UnixTime}
    {outcome : Except ScheduleError Unit} {overlay : Store}
    (hrun : store.stage.perform (executor.handler task now) = (outcome, overlay)) {key : Bytes}
    (hkey : Queue.Uses key) : overlay.contents.get? key = store.contents.get? key := by
  have same := store.stage.get?_perform_of_writesOutside (hspares task now) hkey
  rwa [hrun] at same

/-- Running a task that is due takes it out of the queue, or fails and changes nothing. -/
theorem run_cases (hspares : executor.SparesQueue)
    (h : Queue.bucket.Holds store.contents tasks) (hstore : store.Reliable) (id : RecordId)
    (task : Task) (now : UnixTime) :
    (∃ error, executor.run id task now store = (.error error, store)) ∨
      ∃ fired after, executor.run id task now store = (.ok fired, after) ∧ fired.leaves = true
        ∧ after.Reliable ∧ Queue.bucket.Holds after.contents (tasks.erase id) := by
  -- the handler has left the queue alone
  have hkept : Queue.bucket.Holds
      (store.stage.perform (executor.handler task now)).2.contents tasks :=
    Queue.holds_congr h fun _ => hspares.get?_eq rfl
  rcases run_outcomes h hstore hkept id with
    ⟨error, hrun⟩ | ⟨after, hrun, hafter, hold⟩ | ⟨error, after, hrun, hafter, hold⟩
  · exact .inl ⟨error, hrun⟩
  · exact .inr ⟨.completed, after, hrun, rfl, hafter, hold⟩
  · exact .inr ⟨.failed error, after, hrun, rfl, hafter, hold⟩

/-- An execution takes a task out of the queue that is due, or changes nothing. -/
theorem execute_cases (hspares : executor.SparesQueue)
    (h : Queue.bucket.Holds store.contents tasks) (hstore : store.Reliable) (id : RecordId)
    (now : UnixTime) :
    ((executor.execute id now store).2 = store
        ∧ ∀ fired, (executor.execute id now store).1 = .ok fired → fired.leaves = false) ∨
      ∃ task fired after, tasks.records id = some task ∧ task.runAt ≤ now
        ∧ executor.execute id now store = (.ok fired, after) ∧ fired.leaves = true
        ∧ after.Reliable ∧ Queue.bucket.Holds after.contents (tasks.erase id) := by
  rcases execute_settled h.represents hstore id now with
    ⟨-, missing⟩ | ⟨task, -, -, waits⟩ | ⟨task, hqueued, due, runs⟩
  · rw [missing]
    exact .inl ⟨rfl, fun fired hfired => by cases hfired; rfl⟩
  · rw [waits]
    exact .inl ⟨rfl, fun fired hfired => by cases hfired; rfl⟩
  · rw [runs]
    rcases run_cases hspares h hstore id task now with
      ⟨error, hrun⟩ | ⟨fired, after, hrun, hleaves, hafter, hold⟩
    · rw [hrun]
      exact .inl ⟨rfl, fun fired hfired => by cases hfired⟩
    · exact .inr ⟨task, fired, after, hqueued, Int64.not_lt.1 due, hrun, hleaves, hafter, hold⟩

theorem execute_missing (h : Queue.bucket.Holds store.contents tasks) (hstore : store.Reliable)
    {id : RecordId} (habsent : tasks.records id = none) (now : UnixTime) :
    executor.execute id now store = (.ok .missing, store) := by
  have hget := Queue.get_eq h.represents hstore id
  rw [habsent] at hget
  exact execute_absent hget

end Executor

namespace Queue

/-! ## The story of a task -/

/-- The handlers leave the queue alone, and payloads are no longer than can be written. -/
def Call.Proper : Call → Prop
  | .schedule _ payload => payload.length < UInt64.size
  | .cancel _ => True
  | .execute executor _ _ | .tick executor _ => executor.SparesQueue

/-- The part of a log that is about one task. -/
def about (id : RecordId) (log : List Event) : List Event := log.filter (·.id = id)

theorem about_append_self {id : RecordId} {event : Event} (h : event.id = id)
    (log : List Event) : about id (log ++ [event]) = about id log ++ [event] := by
  simp [about, List.filter_append, h]

theorem about_append_other {id : RecordId} {event : Event} (h : event.id ≠ id)
    (log : List Event) : about id (log ++ [event]) = about id log := by
  simp [about, List.filter_append, h]

/-- What the log may tell about a task, and what is then queued under its ID. -/
inductive Life (id : RecordId) : List Event → Option Task → Prop
  | unborn : Life id [] none
  | waiting (runAt : UnixTime) (payload : Bytes) :
      Life id [.scheduled id runAt payload] (some { id := some id, runAt, payload })
  | cancelled (runAt : UnixTime) (payload : Bytes) :
      Life id [.scheduled id runAt payload, .cancelled id] none
  | ran (runAt : UnixTime) (payload : Bytes) (now : UnixTime) (fired : Fired)
      (due : runAt ≤ now) (left : fired.leaves = true) :
      Life id [.scheduled id runAt payload,
        .ran id { id := some id, runAt, payload } now fired] none

/-! ## One event, all events -/

/-- The log tells how the tasks came to be what they are. -/
structure Tells (log : List Event) (tasks : Table Task) : Prop where
  life : ∀ id, Life id (about id log) (tasks.records id)
  issued : ∀ event ∈ log, tasks.Issued event.id

namespace Tells

variable {log : List Event} {tasks : Table Task}

theorem empty : Tells [] .empty where
  life id := .unborn
  issued event hevent := by cases hevent

/-- A task that is new has an ID that the log has not told of. -/
theorem schedule (h : Tells log tasks) (room : tasks.HasRoom) (runAt : UnixTime)
    (payload : Bytes) :
    Tells (log ++ [.scheduled tasks.next runAt payload])
      (tasks.add { id := none, runAt, payload }) where
  life id := by
    rw [Table.records_add]
    by_cases fresh : id = tasks.next
    · have untold : about id log = [] := by
        refine List.filter_eq_nil_iff.2 fun event hevent same => ?_
        exact room.ne_next (h.issued event hevent) ((of_decide_eq_true same).trans fresh)
      have own : (Event.scheduled tasks.next runAt payload).id = id := fresh.symm
      rw [about_append_self own, untold, if_pos fresh, ← fresh]
      exact .waiting runAt payload
    · rw [about_append_other (Ne.symm fresh), if_neg fresh]
      exact h.life id
  issued event hevent := by
    rcases List.mem_append.1 hevent with hevent | hevent
    · exact room.issued_add (h.issued event hevent) _
    · rw [List.mem_singleton.1 hevent]
      exact tasks.issued_next_add _

/-- A task that leaves the queue was waiting in it. -/
theorem leave (h : Tells log tasks) {id : RecordId} {task : Task} {event : Event}
    (hqueued : tasks.records id = some task) (hid : event.id = id)
    (hlife : ∀ runAt payload, task = { id := some id, runAt, payload } →
      Life id [.scheduled id runAt payload, event] none) :
    Tells (log ++ [event]) (tasks.erase id) where
  life i := by
    rw [Table.records_erase]
    by_cases same : i = id
    · subst same
      have told := h.life i
      rw [hqueued] at told
      rw [if_pos rfl, about_append_self hid]
      generalize about i log = story at told
      cases told with
      | waiting runAt payload => exact hlife runAt payload rfl
    · rw [if_neg same, about_append_other fun told => same (told.symm.trans hid)]
      exact h.life i
  issued other hother := by
    rcases List.mem_append.1 hother with hother | hother
    · exact h.issued other hother
    · -- the log has told of the task before, when it was scheduled
      rw [List.mem_singleton.1 hother, hid]
      have told := h.life id
      rw [hqueued] at told
      generalize hstory : about id log = story at told
      cases told with
      | waiting runAt payload =>
        have first : Event.scheduled id runAt payload ∈ about id log := by
          rw [hstory]
          exact List.mem_singleton_self _
        exact h.issued _ (List.mem_of_mem_filter first)

end Tells

/-- The store holds the tasks that the log tells of. -/
structure Tracks (store : Store) (log : List Event) (tasks : Table Task) : Prop where
  reliable : store.Reliable
  hold : bucket.Holds store.contents tasks
  tells : Tells log tasks

namespace Tracks

variable {store : Store} {log : List Event} {tasks : Table Task} {executor : Executor}

theorem execute (h : Tracks store log tasks) (hspares : executor.SparesQueue) (id : RecordId)
    (now : UnixTime) :
    ∃ tasks', Tracks (executor.execute id now store).2 (log ++ executor.firing id now store)
      tasks' := by
  have hget := get_eq h.hold.represents h.reliable id
  rcases Executor.execute_cases hspares h.hold h.reliable id now with
    ⟨same, stays⟩ | ⟨task, fired, after, hqueued, due, hrun, hleaves, hafter, hold⟩
  · have nothing : executor.firing id now store = [] := by
      unfold Executor.firing
      split
      · rename_i task fired _ hfired
        rw [stays fired hfired]
        rfl
      · rfl
    rw [same, nothing, List.append_nil]
    exact ⟨tasks, h⟩
  · have one : executor.firing id now store = [.ran id task now fired] := by
      simp only [Executor.firing, hget, hqueued, hrun, hleaves, if_true]
    rw [hrun, one]
    refine ⟨tasks.erase id, hafter, hold, h.tells.leave hqueued rfl ?_⟩
    rintro runAt payload rfl
    exact .ran runAt payload now fired due hleaves

theorem executeAll (h : Tracks store log tasks) (hspares : executor.SparesQueue)
    (now : UnixTime) (ids : List RecordId) (report : TickReport) :
    ∃ tasks', Tracks (executor.executeAll now ids report store).2
      (log ++ executor.firings now ids store) tasks' := by
  induction ids generalizing store log tasks report with
  | nil => exact ⟨tasks, by rw [Executor.firings, List.append_nil]; exact h⟩
  | cons id rest ih =>
    obtain ⟨tasks', h'⟩ := h.execute hspares id now
    rw [Executor.executeAll, Executor.firings, ← List.append_assoc]
    cases hrun : executor.execute id now store with
    | mk outcome after =>
      rw [hrun] at h'
      cases outcome with
      | ok fired => exact ih h' (report.add id fired)
      | error error => exact ⟨tasks', by rw [List.append_nil]; exact h'⟩

theorem step (h : Tracks store log tasks) {call : Call} (hproper : call.Proper) :
    ∃ tasks', Tracks (Queue.step store call) (log ++ events store call) tasks' := by
  cases call with
  | schedule runAt payload =>
    rcases schedule_cases h.hold h.reliable runAt hproper with
      ⟨error, hrun⟩ | ⟨after, hrun, room, hafter, hold⟩
    · simp only [Queue.step, events, hrun, List.append_nil]
      exact ⟨tasks, h⟩
    · simp only [Queue.step, events, hrun]
      exact ⟨_, hafter, hold, h.tells.schedule room runAt payload⟩
  | cancel id =>
    rcases cancel_cases h.hold h.reliable id with
      ⟨-, hrun⟩ | ⟨task, after, hqueued, hrun, hafter, hold⟩
    · simp only [Queue.step, events, hrun, List.append_nil]
      exact ⟨tasks, h⟩
    · simp only [Queue.step, events, hrun]
      exact ⟨_, hafter, hold, h.tells.leave hqueued rfl fun runAt payload _ =>
        .cancelled runAt payload⟩
  | execute executor id now => exact h.execute hproper id now
  | tick executor now =>
    simp only [Queue.step, events, Executor.tick, Executor.tickFirings]
    cases Executor.firstDue (executor.limit + 1) now store with
    | error error => exact ⟨tasks, by rw [List.append_nil]; exact h⟩
    | ok due => exact h.executeAll hproper now _ _

theorem run (h : Tracks store log tasks) {calls : List Call}
    (hproper : ∀ call ∈ calls, call.Proper) :
    ∃ tasks', Tracks (Queue.run store calls) (log ++ Queue.log store calls) tasks' := by
  induction calls generalizing store log tasks with
  | nil => exact ⟨tasks, by rw [Queue.log, List.append_nil]; exact h⟩
  | cons call rest ih =>
    obtain ⟨tasks', h'⟩ := h.step (hproper call List.mem_cons_self)
    rw [Queue.log, ← List.append_assoc]
    exact ih h' fun c hc => hproper c (List.mem_cons_of_mem _ hc)

end Tracks

/-! ## Histories -/

theorem about_append (id : RecordId) (first second : List Event) :
    about id (first ++ second) = about id first ++ about id second :=
  List.filter_append ..

namespace Life

variable {id : RecordId} {story : List Event} {queued : Option Task}

/-- A story has two events at most, and is over after the second. -/
theorem ended (h : Life id story queued) :
    story.length ≤ 2 ∧ (story.length = 2 → queued = none) := by
  cases h <;> simp

theorem length_of_left (h : Life id story queued)
    (left : .cancelled id ∈ story ∨ ∃ task now fired, .ran id task now fired ∈ story) :
    story.length = 2 := by
  cases h with
  | unborn => simp at left
  | waiting => simp at left
  | cancelled => rfl
  | ran => rfl

end Life

theorem mem_about {id : RecordId} {event : Event} {told : List Event} (h : event ∈ told)
    (hid : event.id = id) : event ∈ about id told :=
  List.mem_filter.2 ⟨h, decide_eq_true hid⟩

/-- Calls on the queue, made on a store that refuses nothing and starts without any of the
queue's keys. -/
structure History where
  start : Store
  calls : List Call
  reliable : start.Reliable
  vacant : ∀ key, Uses key → start.contents.get? key = none
  proper : ∀ call ∈ calls, call.Proper

theorem History.tracks (history : History) :
    ∃ tasks, Tracks (run history.start history.calls) (log history.start history.calls) tasks :=
  Tracks.run ⟨history.reliable, holds_of_vacant history.vacant, Tells.empty⟩ history.proper

/-- After every history the log tells one story of each task, and what is queued is what the
story says. That a task was run is told exactly if a handler was given this very task in the course
of one of the calls. A task that was cancelled or run is over: whatever calls are made later, the
log does not tell of it again, executing it finds nothing, and it cannot be cancelled. -/
theorem History.delivered_at_most_once (history : History) :
    let store := run history.start history.calls
    let told := log history.start history.calls
    (∀ id, ∃ queued, get store id = .ok queued ∧ Life id (about id told) queued)
      ∧ (∀ id task now fired, .ran id task now fired ∈ told ↔
        ∃ earlier call later, history.calls = earlier ++ call :: later
          ∧ call.Delivers (run history.start earlier) id task now fired)
      ∧ ∀ id, (.cancelled id ∈ told ∨ ∃ task now fired, .ran id task now fired ∈ told) →
        ∀ later : List Call, (∀ call ∈ later, call.Proper) →
          let after := run store later
          about id (log store later) = [] ∧ get after id = .ok none
            ∧ (∀ executor now, Executor.execute executor id now after = (.ok .missing, after))
            ∧ after.perform (cancel id) = (.error (.taskNotFound id), after) := by
  intro store told
  obtain ⟨tasks, tracks⟩ := history.tracks
  refine ⟨fun id => ⟨_, get_eq tracks.hold.represents tracks.reliable id, tracks.tells.life id⟩,
    fun id task now fired => ran_mem_log_iff, ?_⟩
  intro id left later hproper after
  have two : (about id told).length = 2 := by
    refine (tracks.tells.life id).length_of_left ?_
    rcases left with cancelled | ⟨task, now, fired, ran⟩
    · exact .inl (mem_about cancelled rfl)
    · exact .inr ⟨task, now, fired, mem_about ran rfl⟩
  -- the story has no room for a third event
  obtain ⟨tasks', tracks'⟩ := tracks.run hproper
  have life' : Life id (about id told ++ about id (log store later)) (tasks'.records id) :=
    about_append id _ _ ▸ tracks'.tells.life id
  have untold : about id (log store later) = [] := by
    have short := life'.ended.1
    rw [List.length_append, two] at short
    exact List.length_eq_zero_iff.1 (by omega)
  have gone : tasks'.records id = none := by
    refine life'.ended.2 ?_
    rw [untold, List.append_nil]
    exact two
  have missing := get_eq tracks'.hold.represents tracks'.reliable id
  rw [gone] at missing
  refine ⟨untold, missing, fun executor now => ?_, ?_⟩
  · exact Executor.execute_missing tracks'.hold tracks'.reliable gone now
  · rcases cancel_cases tracks'.hold tracks'.reliable id with
      ⟨-, hcancel⟩ | ⟨task, -, hqueued, -⟩
    · exact hcancel
    · rw [gone] at hqueued
      cases hqueued

/-! ## A history, for example -/

/-- Leaves a trace of every task, and fails if the payload asks for it. -/
def tracer : Executor where
  handler task now := do
    (Tx.write [.set (Recorder.traceKey task) (Utf8.encode now.text)]).mapError .store
    match Recorder.requestOf task.payload with
    | .fail => Tx.fail (.handler "rejected")
    | .fatal => Tx.fail (.store (.backend "disk gone"))
    | _ => return ()
  limit_pos := Nat.succ_pos 99

theorem not_uses_traceKey (task : Task) : ¬ Uses (Recorder.traceKey task) := by
  intro used
  have traced : Name.Owns { text := "out" } (Recorder.traceKey task) :=
    .record task.payload rfl
  have queued : bucket.name.Owns (Recorder.traceKey task) := by
    rcases used with covered | counter
    · exact covered.owns
    · exact counter ▸ bucket.owns_counterKey
  exact absurd (Name.owner_unique traced queued) (by decide)

theorem tracer_sparesQueue : tracer.SparesQueue := by
  intro task now
  refine ⟨fun write hwrite => ?_, fun outcome => ?_⟩
  · rw [List.mem_singleton.1 hwrite]
    exact not_uses_traceKey task
  · cases outcome with
    | error error => trivial
    | ok done =>
      show Tx.WritesOutside Uses (match Recorder.requestOf task.payload with
        | .fail => _ | .fatal => _ | _ => _)
      split <;> trivial

/-- Of four tasks one is cancelled, one fails at the tick, the next ends the tick, and the last
waits until it is executed. -/
def traced : History where
  start := .memory
  calls :=
    [.schedule ⟨10⟩ [], .schedule ⟨5⟩ (Utf8.encode "fail"), .schedule ⟨7⟩ [],
     .schedule ⟨6⟩ (Utf8.encode "fatal"), .cancel ⟨3⟩, .tick tracer ⟨20⟩, .execute tracer ⟨1⟩ ⟨9⟩,
     .execute tracer ⟨1⟩ ⟨10⟩]
  reliable _ := rfl
  vacant _ _ := rfl
  proper := by
    simp only [List.forall_mem_cons]
    have nothing : ([] : Bytes).length < UInt64.size := by decide
    have fail : (Utf8.encode "fail").length < UInt64.size := by decide
    have fatal : (Utf8.encode "fatal").length < UInt64.size := by decide
    exact ⟨nothing, fail, nothing, fatal, trivial, tracer_sparesQueue, tracer_sparesQueue,
      tracer_sparesQueue, List.forall_mem_nil _⟩

theorem History.delivered_at_most_once_traced :
    log traced.start traced.calls =
        [.scheduled ⟨1⟩ ⟨10⟩ [], .scheduled ⟨2⟩ ⟨5⟩ (Utf8.encode "fail"), .scheduled ⟨3⟩ ⟨7⟩ [],
         .scheduled ⟨4⟩ ⟨6⟩ (Utf8.encode "fatal"), .cancelled ⟨3⟩,
         .ran ⟨2⟩ ⟨some ⟨2⟩, ⟨5⟩, Utf8.encode "fail"⟩ ⟨20⟩ (.failed (.handler "rejected")),
         .ran ⟨1⟩ ⟨some ⟨1⟩, ⟨10⟩, []⟩ ⟨10⟩ .completed]
      ∧ (∃ queued, get (run traced.start traced.calls) ⟨4⟩ = .ok queued
          ∧ Life ⟨4⟩ (about ⟨4⟩ (log traced.start traced.calls)) queued)
      ∧ (∃ earlier call later, traced.calls = earlier ++ call :: later
          ∧ call.Delivers (run traced.start earlier) ⟨1⟩ ⟨some ⟨1⟩, ⟨10⟩, []⟩ ⟨10⟩ .completed)
      ∧ get (run (run traced.start traced.calls) [.schedule ⟨30⟩ []]) ⟨1⟩ = .ok none := by
  let before := run traced.start (traced.calls.take 5)
  have due : Executor.firstDue (tracer.limit + 1) ⟨20⟩ before = .ok [⟨2⟩, ⟨4⟩, ⟨1⟩] := by
    -- a walk through a range recurses on what is left of it, so it is evaluated by its entries
    show (((IndexScan.items ⟨RangeScan.ofRange _ _ _, none⟩ before).take _).mapM id).mapError _ = _
    rw [IndexScan.items, RangeScan.items_ofRange fun _ => rfl]
    decide +kernel
  have told : log traced.start traced.calls =
      [.scheduled ⟨1⟩ ⟨10⟩ [], .scheduled ⟨2⟩ ⟨5⟩ (Utf8.encode "fail"), .scheduled ⟨3⟩ ⟨7⟩ [],
       .scheduled ⟨4⟩ ⟨6⟩ (Utf8.encode "fatal"), .cancelled ⟨3⟩,
       .ran ⟨2⟩ ⟨some ⟨2⟩, ⟨5⟩, Utf8.encode "fail"⟩ ⟨20⟩ (.failed (.handler "rejected")),
       .ran ⟨1⟩ ⟨some ⟨1⟩, ⟨10⟩, []⟩ ⟨10⟩ .completed] := by
    have firings : tracer.tickFirings ⟨20⟩ before =
        tracer.firings ⟨20⟩ [⟨2⟩, ⟨4⟩, ⟨1⟩] before := by
      rw [Executor.tickFirings, due]
      rfl
    have tick : tracer.tick ⟨20⟩ before =
        tracer.executeAll ⟨20⟩ [⟨2⟩, ⟨4⟩, ⟨1⟩] {} before := by
      rw [Executor.tick, due]
      rfl
    show log traced.start (traced.calls.take 5) ++ (tracer.tickFirings ⟨20⟩ before ++
      log (tracer.tick ⟨20⟩ before).2 (traced.calls.drop 6)) = _
    rw [firings, tick]
    decide +kernel
  have ran : .ran ⟨1⟩ ⟨some ⟨1⟩, ⟨10⟩, []⟩ ⟨10⟩ .completed ∈ log traced.start traced.calls := by
    rw [told]
    simp
  obtain ⟨lives, delivered, spent⟩ := traced.delivered_at_most_once
  have proper : ∀ call ∈ [Call.schedule ⟨30⟩ []], call.Proper :=
    List.forall_mem_singleton.2 (show ([] : Bytes).length < UInt64.size by decide)
  obtain ⟨-, gone, -, -⟩ := spent ⟨1⟩ (.inr ⟨_, _, _, ran⟩) [.schedule ⟨30⟩ []] proper
  exact ⟨told, lives ⟨4⟩, (delivered _ _ _ _).1 ran, gone⟩

end Queue

end Gazette
