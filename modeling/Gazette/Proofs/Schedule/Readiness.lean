import Gazette.Proofs.Bucket.Ranges
import Gazette.Proofs.Schedule.Due
import Gazette.Proofs.Schedule.Firing

set_option autoImplicit false

/-! # When tasks are ready

Whatever is called, a queue stays one as long as handlers keep it (`Queue.Intact.run`). They may
schedule and cancel tasks themselves. So after every run the tasks that are found to be due are
those whose time has come, and those that an execution does not put off. There is one exception: a
task for the very last second is never found, though an execution at that second runs it
(`Queue.due_exact`).
-/

namespace Gazette

/-! ## Steps that keep a queue -/

/-- The store refuses nothing and holds a queue. -/
structure Queue.Intact (store : Store) : Prop where
  reliable : store.Reliable
  held : ∃ tasks, Queue.bucket.Holds store.contents tasks

/-- Where there is a queue there is one after the step, whether it fails or not. -/
def Tx.KeepsQueue {ε α : Type} (step : Tx ε α) : Prop :=
  ∀ store, Queue.Intact store → Queue.Intact (store.perform step).2

/-- The handler keeps the queue when it is run on a task of it. -/
def Executor.KeepsQueue (executor : Executor) : Prop :=
  ∀ store id task now, Queue.Intact store → Queue.get store id = .ok (some task) →
    Queue.Intact (store.perform (executor.handler task now)).2

namespace Tx.KeepsQueue

variable {ε ε' α β : Type}

theorem pure (a : α) : (Pure.pure a : Tx ε α).KeepsQueue := fun _ intact => intact

theorem of_writesOutside {step : Tx ε α} (h : step.WritesOutside Queue.Uses) :
    step.KeepsQueue := by
  rintro store ⟨reliable, tasks, hold⟩
  refine ⟨Store.reliable_perform reliable step, tasks, ?_⟩
  exact Queue.holds_congr hold fun key hkey => store.get?_perform_of_writesOutside h hkey

theorem bind {step : Tx ε α} {next : α → Tx ε β} (hstep : step.KeepsQueue)
    (hnext : ∀ a, (next a).KeepsQueue) : (step >>= next).KeepsQueue := by
  intro store intact
  have first := hstep store intact
  rw [Store.perform_bind]
  cases hrun : store.perform step with
  | mk outcome after =>
    rw [hrun] at first
    cases outcome with
    | ok a => exact hnext a after first
    | error error => exact first

theorem mapError {step : Tx ε α} (hstep : step.KeepsQueue) (f : ε → ε') :
    (step.mapError f).KeepsQueue := by
  intro store intact
  rw [Store.perform_mapError]
  exact hstep store intact

theorem schedule (runAt : UnixTime) {payload : Bytes} (hpayload : payload.length < UInt64.size) :
    (Queue.schedule runAt payload).KeepsQueue := by
  rintro store ⟨reliable, tasks, hold⟩
  rcases Queue.schedule_cases hold reliable runAt hpayload with
    ⟨error, hrun⟩ | ⟨after, hrun, -, hafter, hold'⟩
  · rw [hrun]
    exact ⟨reliable, tasks, hold⟩
  · rw [hrun]
    exact ⟨hafter, _, hold'⟩

theorem cancel (id : RecordId) : (Queue.cancel id).KeepsQueue := by
  rintro store ⟨reliable, tasks, hold⟩
  rcases Queue.cancel_cases hold reliable id with ⟨-, hrun⟩ | ⟨task, after, -, hrun, hafter, hold'⟩
  · rw [hrun]
    exact ⟨reliable, tasks, hold⟩
  · rw [hrun]
    exact ⟨hafter, _, hold'⟩

end Tx.KeepsQueue

/-- A handler that leaves the queue alone keeps it. -/
theorem Executor.SparesQueue.keepsQueue {executor : Executor} (h : executor.SparesQueue) :
    executor.KeepsQueue := fun store _ task now intact _ =>
  Tx.KeepsQueue.of_writesOutside (h task now) store intact

namespace Queue

variable {store : Store} {executor : Executor}

/-- The handlers keep the queue, and payloads are no longer than can be written. -/
def Call.KeepsQueue : Call → Prop
  | .schedule _ payload => payload.length < UInt64.size
  | .cancel _ => True
  | .execute executor _ _ | .tick executor _ => executor.KeepsQueue

namespace Intact

theorem of_vacant (reliable : store.Reliable)
    (vacant : ∀ key, Uses key → store.contents.get? key = none) : Intact store :=
  ⟨reliable, _, holds_of_vacant vacant⟩

theorem execute (h : Intact store) (hkeeps : executor.KeepsQueue) (id : RecordId)
    (now : UnixTime) : Intact (executor.execute id now store).2 := by
  obtain ⟨tasks, hold⟩ := h.held
  rcases Executor.execute_settled hold.represents h.reliable id now with
    ⟨-, missing⟩ | ⟨task, -, -, waits⟩ | ⟨task, hqueued, -, runs⟩
  · rw [missing]
    exact h
  · rw [waits]
    exact h
  · -- the handler finds the queue on its overlay
    have on_stage : bucket.Holds store.stage.contents tasks := hold
    have staged : Intact store.stage := ⟨Store.reliable_stage h.reliable, tasks, on_stage⟩
    have hget := get_eq on_stage.represents staged.reliable id
    rw [hqueued] at hget
    obtain ⟨kept, hkept⟩ := (hkeeps store.stage id task now staged hget).held
    rw [runs]
    rcases Executor.run_outcomes hold h.reliable hkept id with
      ⟨error, hrun⟩ | ⟨after, hrun, hafter, hold'⟩ | ⟨error, after, hrun, hafter, hold'⟩
    · rw [hrun]
      exact h
    · rw [hrun]
      exact ⟨hafter, _, hold'⟩
    · rw [hrun]
      exact ⟨hafter, _, hold'⟩

theorem executeAll (h : Intact store) (hkeeps : executor.KeepsQueue) (now : UnixTime)
    (ids : List RecordId) (report : TickReport) :
    Intact (executor.executeAll now ids report store).2 := by
  induction ids generalizing store report with
  | nil => exact h
  | cons id rest ih =>
    have first := h.execute hkeeps id now
    rw [Executor.executeAll]
    cases hrun : executor.execute id now store with
    | mk outcome after =>
      rw [hrun] at first
      cases outcome with
      | ok fired => exact ih first (report.add id fired)
      | error error => exact first

/-- Every call leaves a queue. -/
theorem step (h : Intact store) {call : Call} (hkeeps : call.KeepsQueue) :
    Intact (step store call) := by
  cases call with
  | schedule runAt payload => exact Tx.KeepsQueue.schedule runAt hkeeps store h
  | cancel id => exact Tx.KeepsQueue.cancel id store h
  | execute executor id now => exact h.execute hkeeps id now
  | tick executor now =>
    rw [Queue.step, Executor.tick]
    split
    · exact h
    · exact h.executeAll hkeeps now _ _

/-- And so does every run. -/
theorem run (h : Intact store) {calls : List Call} (hkeeps : ∀ call ∈ calls, call.KeepsQueue) :
    Intact (run store calls) := by
  induction calls generalizing store with
  | nil => exact h
  | cons call rest ih =>
    have first := h.step (hkeeps call List.mem_cons_self)
    exact ih first fun c hc => hkeeps c (List.mem_cons_of_mem _ hc)

end Intact

/-! ## What is due -/

/-- These are the IDs of the queued tasks that are wanted, each once, in the order of their run
times and, at the same second, of their IDs. -/
structure Picks (store : Store) (wanted : RecordId → Task → Prop) (ids : List RecordId) :
    Prop where
  mem_iff : ∀ id, id ∈ ids ↔ ∃ task, get store id = .ok (some task) ∧ wanted id task
  once : ids.Nodup
  ordered : ids.Pairwise fun i j => ∃ s t, get store i = .ok (some s) ∧ get store j = .ok (some t)
    ∧ (s.runAt < t.runAt ∨ (s.runAt = t.runAt ∧ i < j))

/-- The same tasks are picked for two reasons if these agree on all queued tasks. -/
theorem Picks.picks_iff {wanted wanted' : RecordId → Task → Prop} {ids : List RecordId}
    (h : Picks store wanted ids) :
    Picks store wanted' ids ↔
      ∀ id task, get store id = .ok (some task) → (wanted id task ↔ wanted' id task) := by
  have picked : ∀ {wanted}, Picks store wanted ids → ∀ {id task},
      get store id = .ok (some task) → (id ∈ ids ↔ wanted id task) := by
    intro wanted picks id task hget
    rw [picks.mem_iff]
    constructor
    · rintro ⟨other, hother, want⟩
      obtain rfl := Option.some.inj (Except.ok.inj (hget.symm.trans hother))
      exact want
    · exact fun want => ⟨task, hget, want⟩
  constructor
  · intro h' id task hget
    exact (picked h hget).symm.trans (picked h' hget)
  · intro agree
    refine ⟨fun id => (h.mem_iff id).trans ?_, h.once, h.ordered⟩
    exact exists_congr fun task => and_congr_right fun hget => agree id task hget

/-- In a queue the tasks that are found to be due are those whose time has come, except for the
last second. -/
theorem Intact.exists_picks (h : Intact store) (now : UnixTime) :
    ∃ ids, due store now = .ok ids
      ∧ Picks store (fun _ task => task.runAt ≤ now ∧ task.runAt < .last) ids := by
  obtain ⟨tasks, hold⟩ := h.held
  obtain ⟨ids, before, hdue, -⟩ := exists_due hold h.reliable now
  have get_iff : ∀ id task, get store id = .ok (some task) ↔ tasks.records id = some task := by
    intro id task
    rw [get_eq hold.represents h.reliable, Except.ok.injEq]
  refine ⟨ids, hdue, fun id => (before.mem_iff id).trans ?_, before.nodup, ?_⟩
  · simp only [get_iff, UnixTime.lt_next_iff]
  · simpa only [get_iff] using before.ordered

/-- An execution puts off the tasks whose time has not come, and no others. -/
theorem Intact.execute_notDue_iff (h : Intact store) (executor : Executor) {id : RecordId}
    {task : Task} (hget : get store id = .ok (some task)) (now : UnixTime) :
    (executor.execute id now store).1 = .ok .notDue ↔ now < task.runAt := by
  obtain ⟨tasks, hold⟩ := h.held
  rw [Executor.execute_notDue_iff hold.represents h.reliable, hget]
  simp only [Except.ok.injEq, Option.some.injEq, exists_eq_left']

/-- After every run the tasks that are found to be due are those whose time has come, which are
those that an execution does not put off, unless it is the last second there is and a task runs at
this second. -/
theorem due_exact {start : Store} (reliable : start.Reliable)
    (vacant : ∀ key, Uses key → start.contents.get? key = none) {calls : List Call}
    (hkeeps : ∀ call ∈ calls, call.KeepsQueue) (now : UnixTime) :
    let store := run start calls
    let missed := now = .last ∧ ∃ id task, get store id = .ok (some task) ∧ task.runAt = .last
    ∃ ids, due store now = .ok ids
      ∧ Picks store (fun _ task => task.runAt ≤ now ∧ task.runAt < .last) ids
      ∧ (Picks store (fun _ task => task.runAt ≤ now) ids ↔ ¬ missed)
      ∧ ∀ executor : Executor,
          (Picks store (fun id _ => (executor.execute id now store).1 ≠ .ok .notDue) ids ↔
            ¬ missed) := by
  intro store missed
  have intact : Intact store := (Intact.of_vacant reliable vacant).run hkeeps
  obtain ⟨ids, hdue, picks⟩ := intact.exists_picks now
  have exact : Picks store (fun _ task => task.runAt ≤ now) ids ↔ ¬ missed := by
    refine picks.picks_iff.trans ?_
    constructor
    · rintro agree ⟨rfl, id, task, hget, same⟩
      have come : task.runAt ≤ .last := same ▸ UnixTime.le_iff.2 (Int.le_refl _)
      have early : task.runAt < .last := ((agree id task hget).2 come).2
      exact UnixTime.lt_last_iff.1 early same
    · intro not_missed id task hget
      refine and_iff_left_of_imp fun due => UnixTime.lt_last_iff.2 fun same => ?_
      have at_last : now = .last := by
        by_contra earlier
        have less : now < .last := UnixTime.lt_last_iff.2 earlier
        exact Int64.not_lt.2 due (same ▸ less)
      exact not_missed ⟨at_last, id, task, hget, same⟩
  refine ⟨ids, hdue, picks, exact, fun executor => ?_⟩
  refine Iff.trans ?_ exact
  rw [picks.picks_iff, picks.picks_iff]
  refine forall_congr' fun id => forall_congr' fun task => forall_congr' fun hget => ?_
  have put_off : ¬ now < task.runAt ↔ task.runAt ≤ now := Int64.not_lt
  rw [Ne, intact.execute_notDue_iff executor hget, put_off]

/-! ## Tasks passed on -/

/-- Leaves a trace of every task and passes it on to the last second there is. -/
def relay : Executor :=
  { tracer with
    handler := fun task now => do
      (Tx.write [.set (Recorder.traceKey task) (Utf8.encode now.text)]).mapError .store
      let _ ← schedule .last []
      return () }

theorem relay_keepsQueue : relay.KeepsQueue := by
  intro store id task now intact _
  have trace : Tx.KeepsQueue
      (Tx.write [.set (Recorder.traceKey task) (Utf8.encode now.text)]) := by
    refine .of_writesOutside ⟨fun write hwrite => ?_, fun _ => trivial⟩
    rw [List.mem_singleton.1 hwrite]
    exact not_uses_traceKey task
  have passed : Tx.KeepsQueue (schedule .last []) := .schedule .last (by decide)
  exact (trace.mapError _).bind (fun _ => passed.bind fun _ => .pure ()) store intact

/-- The first task is passed on and waits behind the second, and the third is run. -/
def relayed : List Call :=
  [.schedule ⟨20⟩ [], .schedule ⟨30⟩ [], .schedule ⟨5⟩ [], .execute relay ⟨1⟩ ⟨20⟩,
   .execute tracer ⟨3⟩ ⟨5⟩]

/-- The due tasks are those whose IDs are held by the entries up to the bound. -/
theorem due_eq_ok {store : Store} (reliable : store.Reliable) {now : UnixTime}
    {ids : List RecordId}
    (held : (store.contents.range (bucket.boundKey bucket.indexes[0] [])
      (some (bucket.boundKey bucket.indexes[0] ((now.addSeconds 1).keyBytes?.getD [])))).mapM
        IndexScan.idOf = .ok ids) : due store now = .ok ids := by
  have given : IndexScan.ids ⟨RangeScan.ofRange (bucket.boundKey bucket.indexes[0] [])
      (some (bucket.boundKey bucket.indexes[0] ((now.addSeconds 1).keyBytes?.getD [])))
      bucket.pageSize, none⟩ store = .ok ids := by
    rw [IndexScan.ids, IndexScan.items_ofRange reliable, List.mapM_map]
    exact held
  exact bind_eq_ok.2 ⟨_, rfl, mapError_eq_ok.2 given⟩

/-- At any time but the last second the due tasks are found, and then one is missed. -/
theorem due_exact_relayed :
    let store := run .memory relayed
    due store ⟨30⟩ = .ok [⟨2⟩]
      ∧ Picks store (fun _ task => task.runAt ≤ ⟨30⟩) [⟨2⟩]
      ∧ due store .last = .ok [⟨2⟩]
      ∧ ¬ Picks store (fun id _ => (relay.execute id .last store).1 ≠ .ok .notDue) [⟨2⟩] := by
  intro store
  have short : ([] : Bytes).length < UInt64.size := by decide
  have keeps : ∀ call ∈ relayed, call.KeepsQueue := by
    simp only [relayed, List.forall_mem_cons]
    exact ⟨short, short, short, relay_keepsQueue, tracer_sparesQueue.keepsQueue,
      List.forall_mem_nil _⟩
  have empty : Store.memory.Reliable := Store.reliable_memory _
  have vacant : ∀ key, Uses key → Store.memory.contents.get? key = none := fun _ _ => rfl
  have reliable : store.Reliable := ((Intact.of_vacant empty vacant).run keeps).reliable
  obtain ⟨ids, hdue, -, exact, -⟩ := due_exact empty vacant keeps ⟨30⟩
  obtain ⟨ids', hdue', -, -, ready⟩ := due_exact empty vacant keeps .last
  have found : due store ⟨30⟩ = .ok [⟨2⟩] := due_eq_ok reliable (by decide +kernel)
  have found' : due store .last = .ok [⟨2⟩] := due_eq_ok reliable (by decide +kernel)
  obtain rfl := Except.ok.inj (hdue.symm.trans found)
  obtain rfl := Except.ok.inj (hdue'.symm.trans found')
  have passed : get store ⟨4⟩ = .ok (some ⟨some ⟨4⟩, .last, []⟩) := by decide +kernel
  refine ⟨found, exact.2 fun missed => ?_, found', fun picks => ?_⟩
  · exact absurd missed.1 (by decide)
  · exact (ready relay).1 picks ⟨rfl, ⟨4⟩, _, passed, rfl⟩

/-- A task that runs at the last second is not found when it is due. -/
theorem not_due_exact :
    ¬ ∀ (calls : List Call) (now : UnixTime), (∀ call ∈ calls, call.KeepsQueue) →
      let store := run .memory calls
      ∃ ids, due store now = .ok ids ∧ Picks store (fun _ task => task.runAt ≤ now) ids
        ∧ ∀ executor : Executor,
            Picks store (fun id _ => (executor.execute id now store).1 ≠ .ok .notDue) ids := by
  intro claimed
  let store := run .memory [.schedule .last (Utf8.encode "a")]
  have reliable : store.Reliable := fun _ => rfl
  have keeps : ∀ call ∈ [Call.schedule .last (Utf8.encode "a")], call.KeepsQueue :=
    List.forall_mem_singleton.2 (show (Utf8.encode "a").length < UInt64.size by decide)
  obtain ⟨ids, hdue, picks, -⟩ := claimed [.schedule .last (Utf8.encode "a")] .last keeps
  have nothing : due store .last = .ok [] := due_eq_ok reliable (by decide +kernel)
  obtain rfl := Except.ok.inj (hdue.symm.trans nothing)
  have queued : get store ⟨1⟩ = .ok (some ⟨some ⟨1⟩, .last, Utf8.encode "a"⟩) := by decide +kernel
  exact List.not_mem_nil ((picks.mem_iff ⟨1⟩).2 ⟨_, queued, by decide⟩)

end Queue

end Gazette
