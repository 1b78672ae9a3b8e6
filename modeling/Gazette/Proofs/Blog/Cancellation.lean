import Gazette.Proofs.Blog.FrontEnds
import Gazette.Proofs.Blog.Permanence
import Gazette.Proofs.Blog.Scheduling

set_option autoImplicit false

/-! # What cancelling a deletion takes away

The deletion of an article is cancelled by whoever scheduled it, as long as the task is queued. The
task goes first, and if the queue or its front end does not give it up, the ticket stays and nothing
has changed. Once the task is gone the ticket is taken away, which cannot fail. So a cancellation
empties the keys of the task and that of the ticket, or it is refused for one of four reasons, the
first that applies, and can be tried again (`Deletions.CancelsExactly`).

A task that has been run leaves its ticket behind, and nothing takes the ticket away after that. So
a ticket whose task is not in the queue is the sign of a task that has been run
(`App.exists_stale`), and then it is too late to cancel (`App.cancel_exact`).
-/

namespace Gazette

variable {store after : Store} {tables : Tables} {taskId : RecordId} {ctx : Context}
  {ticket : DeletionTicket}

/-! ## Cancelling a task -/

/-- A task that is taken out of the queue leaves its keys empty. -/
theorem Queue.cancel_empties {tasks : RecordId → Option Task}
    (h : bucket.Represents store.contents tasks) (hstore : store.Reliable)
    (hrun : store.perform (cancel taskId) = (.ok (), after)) :
    ∃ task, tasks taskId = some task
      ∧ Contents.Emptied (TaskKey taskId task) store.contents after.contents := by
  have hdelete := cancel_eq_ok hrun
  cases hqueued : tasks taskId with
  | none =>
    rw [h.delete_absent hstore hqueued] at hdelete
    cases hdelete
  | some task =>
    obtain ⟨after', hstored, -, emptied⟩ := h.delete_stored hstore hqueued
    cases hdelete.symm.trans hstored
    exact ⟨task, rfl, emptied.congr fun key => keyOf_iff (h.sound taskId task hqueued).valid⟩

/-- The front end gives the task up as the queue does, or nothing happens. -/
theorem Tx.Fronts.cancel_cases {tasks : Table Task} {step : Tx ScheduleError Unit}
    (fronts : step.Fronts (Queue.cancel taskId)) (h : Queue.bucket.Holds store.contents tasks)
    (hstore : store.Reliable) :
    (∃ error, store.perform step = (.error error, store)) ∨
      ∃ after, store.perform step = (.ok (), after)
        ∧ store.perform (Queue.cancel taskId) = (.ok (), after) := by
  rcases fronts store with same | refused
  · rw [same]
    rcases Queue.cancel_cases h hstore taskId with ⟨-, hcancel⟩ | ⟨task, after, -, hcancel, -⟩
    · exact .inl ⟨_, hcancel⟩
    · exact .inr ⟨after, hcancel, hcancel⟩
  · exact .inl refused

namespace Deletions

variable {deletions : Deletions}

/-- Why a cancellation is refused: the first reason that applies. -/
inductive Refuses (deletions : Deletions) (ctx : Context) (taskId : RecordId) (store : Store) :
    BlogError → Prop
  | unticketed (absent : deletions.ticket store taskId = .ok none) :
      Refuses deletions ctx taskId store
        (.store (.notFound deletions.collections.tickets.name.text taskId))
  | unsigned {ticket : DeletionTicket} (found : deletions.ticket store taskId = .ok (some ticket))
      (unsigned : ctx.signers = []) : Refuses deletions ctx taskId store .missingSigner
  | unauthorized {ticket : DeletionTicket} {signer : Address}
      (found : deletions.ticket store taskId = .ok (some ticket))
      (signed : ctx.mainSigner = .ok signer) (other : signer ≠ ticket.owner) :
      Refuses deletions ctx taskId store (.unauthorized signer (.cancelDeletion taskId))
  | kept {ticket : DeletionTicket} {error : ScheduleError}
      (found : deletions.ticket store taskId = .ok (some ticket))
      (signed : ctx.mainSigner = .ok ticket.owner)
      (failed : (store.perform (deletions.scheduler.cancel taskId)).1 = .error error) :
      Refuses deletions ctx taskId store (.schedule error)

/-- Nothing stands in the way of a cancellation. -/
def Grants (deletions : Deletions) (ctx : Context) (taskId : RecordId) (store : Store) : Prop :=
  ∃ ticket, deletions.ticket store taskId = .ok (some ticket)
    ∧ ctx.mainSigner = .ok ticket.owner
    ∧ (store.perform (deletions.scheduler.cancel taskId)).1 = .ok ()

/-- Cancelling a deletion does all that belongs to it, or nothing. -/
structure CancelsExactly (deletions : Deletions) (ctx : Context) (taskId : RecordId)
    (store : Store) : Prop where
  ok_iff : (store.perform (deletions.cancel ctx taskId)).1 = .ok () ↔
    deletions.Grants ctx taskId store
  error_iff : ∀ error, (store.perform (deletions.cancel ctx taskId)).1 = .error error ↔
    deletions.Refuses ctx taskId store error
  removes : ∀ after, store.perform (deletions.cancel ctx taskId) = (.ok (), after) →
    ∃ task, Queue.get store taskId = .ok (some task)
      ∧ Contents.Emptied (fun key => Queue.TaskKey taskId task key
          ∨ key = deletions.collections.tickets.recordKey taskId) store.contents after.contents
  keeps : ∀ error after, store.perform (deletions.cancel ctx taskId) = (.error error, after) →
    after = store

/-! ## Refusals -/

section refusals

variable {signer : Address} {error : BlogError}

theorem authorizeCancel_absent (absent : deletions.ticket store taskId = .ok none) :
    deletions.authorizeCancel ctx taskId store =
      .error (.store (.notFound deletions.collections.tickets.name.text taskId)) := by
  have hget := mapError_eq_ok.1 absent
  rw [authorizeCancel, Bucket.one, hget]
  rfl

theorem authorizeCancel_found (found : deletions.ticket store taskId = .ok (some ticket)) :
    deletions.authorizeCancel ctx taskId store =
      ctx.requireOwner ticket.owner (.cancelDeletion taskId) >>= fun _ => .ok ticket := by
  have hget := mapError_eq_ok.1 found
  rw [authorizeCancel, Bucket.one, hget]
  rfl

theorem authorizeCancel_owner (found : deletions.ticket store taskId = .ok (some ticket))
    (signed : ctx.mainSigner = .ok ticket.owner) :
    deletions.authorizeCancel ctx taskId store = .ok ticket := by
  rw [authorizeCancel_found found]
  refine bind_eq_ok.2 ⟨ticket.owner, bind_eq_ok.2 ⟨ticket.owner, signed, if_pos rfl⟩, rfl⟩

/-- A cancellation that is refused changes nothing. -/
theorem Refuses.perform_cancel (h : deletions.Refuses ctx taskId store error)
    (fronts : (deletions.scheduler.cancel taskId).Fronts (Queue.cancel taskId))
    {tasks : Table Task} (hqueue : Queue.bucket.Holds store.contents tasks)
    (hstore : store.Reliable) :
    store.perform (deletions.cancel ctx taskId) = (.error error, store) := by
  unfold cancel
  cases h with
  | unticketed absent => exact Store.perform_read_bind_of_error (authorizeCancel_absent absent) _
  | unsigned found unsigned =>
    have refused : deletions.authorizeCancel ctx taskId store = .error .missingSigner := by
      rw [authorizeCancel_found found, Context.requireOwner, Context.mainSigner, unsigned]
      rfl
    exact Store.perform_read_bind_of_error refused _
  | @unauthorized ticket signer found signed other =>
    have refused : deletions.authorizeCancel ctx taskId store =
        .error (.unauthorized signer (.cancelDeletion taskId)) := by
      rw [authorizeCancel_found found, Context.requireOwner, signed]
      exact bind_eq_error.2 (.inl (if_neg other.symm))
    exact Store.perform_read_bind_of_error refused _
  | kept found signed failed =>
    rw [Store.perform_read_bind_of_ok (authorizeCancel_owner found signed)]
    rcases fronts.cancel_cases hqueue hstore with ⟨reason, hcancel⟩ | ⟨after, hcancel, -⟩
    · rw [hcancel] at failed
      cases failed
      exact Store.perform_bind_of_error (Store.perform_mapError_of_error hcancel _) _
    -- the scheduler would not have failed
    · rw [hcancel] at failed
      cases failed

end refusals

/-- What is not refused is granted. -/
theorem refuses_or_grants (ctx : Context) {ticket? : Option DeletionTicket}
    (h : deletions.ticket store taskId = .ok ticket?) :
    (∃ error, deletions.Refuses ctx taskId store error) ∨ deletions.Grants ctx taskId store := by
  cases ticket? with
  | none => exact .inl ⟨_, .unticketed h⟩
  | some ticket =>
    cases hsigners : ctx.signers with
    | nil => exact .inl ⟨_, .unsigned h hsigners⟩
    | cons signer rest =>
      have signed : ctx.mainSigner = .ok signer := by rw [Context.mainSigner, hsigners]
      by_cases own : signer = ticket.owner
      · rw [own] at signed
        cases hcancel : (store.perform (deletions.scheduler.cancel taskId)).1 with
        | error error => exact .inl ⟨_, .kept h signed hcancel⟩
        | ok done => exact .inr ⟨ticket, h, signed, hcancel⟩
      · exact .inl ⟨_, .unauthorized h signed own⟩

/-! ## Cancellations -/

section cancellations

variable (hold : deletions.collections.Hold store.contents tables) (hstore : store.Reliable)
  (fronts : (deletions.scheduler.cancel taskId).Fronts (Queue.cancel taskId))

include hold hstore fronts

/-- The ticket is taken away from the store that is left by taking away the task. -/
theorem Grants.perform_cancel (h : deletions.Grants ctx taskId store) :
    ∃ task after, store.perform (deletions.cancel ctx taskId) = (.ok (), after)
      ∧ Queue.get store taskId = .ok (some task)
      ∧ Contents.Emptied (fun key => Queue.TaskKey taskId task key
          ∨ key = deletions.collections.tickets.recordKey taskId) store.contents
          after.contents := by
  obtain ⟨ticket, found, signed, done⟩ := h
  have queue : Queue.bucket.Holds store.contents tables.tasks := hold .task
  rcases fronts.cancel_cases queue hstore with ⟨reason, hcancel⟩ | ⟨dequeued, hcancel, hqueue⟩
  · rw [hcancel] at done
    cases done
  obtain ⟨task, hqueued, task_gone⟩ := Queue.cancel_empties queue.represents hstore hqueue
  obtain ⟨-, -, hdequeued, hold'⟩ := hold.queue_cancel hstore hqueue
  -- the ticket is not among what was taken away
  have held : tables.tickets.records taskId = some ticket :=
    Except.ok.inj ((hold.ticket_eq hstore taskId).symm.trans found)
  obtain ⟨after, hdelete, -, ticket_gone⟩ :=
    (hold' .ticket).represents.delete_stored hdequeued held
  refine ⟨task, after, ?_, ?_, ?_⟩
  · unfold cancel
    rw [Store.perform_read_bind_of_ok (authorizeCancel_owner found signed),
      Store.perform_bind_of_ok (Store.perform_mapError_eq_ok.2 hcancel)]
    exact Store.perform_bind_of_ok (Store.perform_mapError_eq_ok.2 hdelete) _
  · rw [hold.task_eq hstore, hqueued]
  · exact (task_gone.trans ticket_gone).congr fun key =>
      or_congr_right Collections.keyOf_ticket

theorem cancels_exactly : deletions.CancelsExactly ctx taskId store := by
  have found : deletions.ticket store taskId = .ok (tables.tickets.records taskId) :=
    hold.ticket_eq hstore taskId
  have refused : ∀ error, deletions.Refuses ctx taskId store error →
      store.perform (deletions.cancel ctx taskId) = (.error error, store) := fun error refuses =>
    refuses.perform_cancel fronts (hold .task) hstore
  -- refused or granted, the call has one outcome, so it is not the other as well
  rcases refuses_or_grants ctx found with ⟨error, refuses⟩ | grants
  · have hrun := refused error refuses
    constructor
    case ok_iff =>
      refine iff_of_false (fun ok => ?_) fun grants => ?_
      · rw [hrun] at ok
        cases ok
      · obtain ⟨task, after, done, -⟩ := grants.perform_cancel hold hstore fronts
        cases hrun.symm.trans done
    case error_iff =>
      intro other
      refine ⟨fun failed => ?_, fun refuses' => congrArg Prod.fst (refused other refuses')⟩
      rw [hrun] at failed
      cases failed
      exact refuses
    case removes =>
      intro after done
      cases hrun.symm.trans done
    case keeps =>
      intro other after failed
      cases hrun.symm.trans failed
      rfl
  · obtain ⟨task, after, hrun, hqueued, emptied⟩ := grants.perform_cancel hold hstore fronts
    constructor
    case ok_iff => exact iff_of_true (congrArg Prod.fst hrun) grants
    case error_iff =>
      intro error
      refine iff_of_false (fun failed => ?_) fun refuses => ?_
      · rw [hrun] at failed
        cases failed
      · cases hrun.symm.trans (refused error refuses)
    case removes =>
      intro last done
      cases hrun.symm.trans done
      exact ⟨task, hqueued, emptied⟩
    case keeps =>
      intro error last failed
      cases hrun.symm.trans failed

end cancellations

end Deletions

/-! ## Tasks that have been run -/

/-- There is a ticket for the task, but the task is not in the queue. -/
def Tables.Stale (tables : Tables) (id : RecordId) : Prop :=
  (∃ ticket, tables.tickets.records id = some ticket) ∧ tables.tasks.records id = none

variable {tables' : Tables} {id : RecordId}

/-- A task and its ticket come and go together. -/
theorem Delivered.stale_iff {message : Message} {answer : RecordId} (linked : tables.Linked)
    (h : Delivered ctx tables message answer tables') : tables'.Stale id ↔ tables.Stale id := by
  cases h with
  | createUser | createBlog | changeBlogOwner | createArticle | deleteArticle | createComment
  | createLike => exact Iff.rfl
  | scheduleArticle found signed room ahead queue_room =>
    simp only [Tables.Stale, Tables.schedule, Table.records_set, Table.records_add]
    by_cases new : id = tables.tasks.next
    -- the ID had no ticket before, and now it has a task as well
    · have free := Linked.next_free linked queue_room
      rw [if_pos new, if_pos new, new, free.2]
      refine iff_of_false (fun stale => ?_) fun stale => ?_
      · cases stale.2
      · obtain ⟨⟨ticket, hticket⟩, -⟩ := stale
        cases hticket
    · rw [if_neg new, if_neg new]
  | cancelDeletion found signed queued =>
    simp only [Tables.Stale, Tables.cancel, Table.records_erase]
    by_cases same : id = answer
    -- the task was in the queue before, and now the ticket is gone as well
    · rw [if_pos same, if_pos same, same, queued]
      refine iff_of_false (fun stale => ?_) fun stale => ?_
      · obtain ⟨⟨ticket, hticket⟩, -⟩ := stale
        cases hticket
      · cases stale.2
    · rw [if_neg same, if_neg same]

/-- Tasks that are run leave the queue, and their tickets stay. -/
theorem Tables.Linked.stale_iff_of_run (linked : tables.Linked) {ids : List RecordId}
    (queued : ∀ i ∈ ids, ∃ task, tables.tasks.records i = some task)
    (tickets_eq : tables'.tickets = tables.tickets)
    (tasks_eq : ∀ i, tables'.tasks.records i = if i ∈ ids then none else tables.tasks.records i) :
    tables'.Stale id ↔ tables.Stale id ∨ id ∈ ids := by
  rw [Tables.Stale, Tables.Stale, tickets_eq, tasks_eq]
  by_cases ran : id ∈ ids
  · obtain ⟨task, htask⟩ := queued id ran
    obtain ⟨ticket, hticket, -⟩ := linked.ticketed id task htask
    rw [if_pos ran]
    exact iff_of_true ⟨⟨ticket, hticket⟩, rfl⟩ (.inr ran)
  · rw [if_neg ran, or_iff_left ran]

namespace App

variable {app : App}

/-- The call runs the task with this ID. -/
inductive Fires (app : App) (store : Store) (id : RecordId) : Call → Prop
  | tick {now : UnixTime} {report : TickReport} (ticked : (app.tick now store).1 = .ok report)
      (listed : id ∈ report.completed ∨ id ∈ report.failed) : Fires app store id (.tick now)
  | fire {now : UnixTime} {fired : Fired} (answered : (app.fire id now store).1 = .ok fired)
      (leaves : fired.leaves = true) : Fires app store id (.fire id now)

/-- In the course of the run the task with this ID has been run. -/
def HasFired (app : App) (calls : List Call) (id : RecordId) : Prop :=
  ∃ earlier call later, calls = earlier ++ call :: later
    ∧ app.Fires (app.reached earlier) id call

/-- What a tick runs is what it reports. -/
theorem Stands.stale_tick (h : app.Stands store tables) (now : UnixTime) :
    ∃ tables', app.Stands (app.step store (.tick now)) tables'
      ∧ ∀ id, tables'.Stale id ↔ tables.Stale id ∨ app.Fires store id (.tick now) := by
  obtain ⟨due, hdue, -⟩ := h.exists_due now
  obtain ⟨tables', after, htick, -, executed, h', left⟩ := tick_eq h hdue
  have after_eq : app.step store (.tick now) = after := congrArg Prod.snd htick
  refine ⟨tables', after_eq.symm ▸ h', fun id => ?_⟩
  have queued : ∀ i ∈ due.take app.executor.limit, ∃ task, tables.tasks.records i = some task := by
    intro i hi
    obtain ⟨task, htask, -⟩ := (hdue.mem_iff i).1 (List.mem_of_mem_take hi)
    exact ⟨task, htask⟩
  rw [h.linked.stale_iff_of_run queued (executed.of_eq .ticket nofun nofun) left]
  refine or_congr_right ⟨fun ran => .tick (congrArg Prod.fst htick) (.inl ran), fun fires => ?_⟩
  cases fires with
  | tick ticked listed =>
    rw [htick] at ticked
    cases ticked
    exact listed.resolve_right List.not_mem_nil

/-- A task that is run on its own completes. -/
theorem Stands.stale_fire (h : app.Stands store tables) (i : RecordId) (now : UnixTime) :
    ∃ tables', app.Stands (app.step store (.fire i now)) tables'
      ∧ ∀ id, tables'.Stale id ↔ tables.Stale id ∨ app.Fires store id (.fire i now) := by
  obtain ⟨fired, tables', after, hfire, executed, h'⟩ := fire_eq h i now
  have after_eq : app.step store (.fire i now) = after := congrArg Prod.snd hfire
  have fires_iff : ∀ id, app.Fires store id (.fire i now) ↔ id = i ∧ fired.leaves = true := by
    intro id
    constructor
    · intro fires
      cases fires with
      | fire answered leaves =>
        rw [hfire] at answered
        cases answered
        exact ⟨rfl, leaves⟩
    · rintro ⟨rfl, leaves⟩
      exact .fire (congrArg Prod.fst hfire) leaves
  refine ⟨tables', after_eq.symm ▸ h', fun id => ?_⟩
  rw [fires_iff]
  cases executed with
  | missing | notDue => exact (or_iff_left fun fires => by cases fires.2).symm
  | completed queued due held named =>
    have ran : ∀ j ∈ [i], ∃ task, tables.tasks.records j = some task :=
      List.forall_mem_singleton.2 ⟨_, queued⟩
    have tasks_eq : ∀ j, (tables.tasks.erase i).records j =
        if j ∈ [i] then none else tables.tasks.records j := by
      intro j
      simp only [Table.records_erase, List.mem_singleton]
    refine Iff.trans (h.linked.stale_iff_of_run ran rfl tasks_eq) (or_congr_right ?_)
    rw [List.mem_singleton]
    exact (and_iff_left rfl).symm

theorem Stands.stale_step (h : app.Stands store tables) (behind : app.scheduler.FrontsQueue)
    (call : Call) :
    ∃ tables', app.Stands (app.step store call) tables'
      ∧ ∀ id, tables'.Stale id ↔ tables.Stale id ∨ app.Fires store id call := by
  cases call with
  | tick now => exact h.stale_tick now
  | fire i now => exact h.stale_fire i now
  | deliver ctx message =>
    -- no request runs a task
    obtain ⟨tables', transition, h'⟩ := h.step_behind behind (.deliver ctx message)
    refine ⟨tables', h', fun id => ?_⟩
    rw [or_iff_left fun fires => by cases fires]
    cases transition with
    | idle => exact Iff.rfl
    | deliver delivered => exact delivered.stale_iff h.linked
  | check ctx message => exact ⟨tables, h, fun id => (or_iff_left fun fires => by cases fires).symm⟩

/-- The induction is from the end of the run. -/
theorem exists_stale (behind : app.scheduler.FrontsQueue) (calls : List Call) :
    ∃ tables, app.Stands (app.reached calls) tables
      ∧ ∀ id, tables.Stale id ↔ app.HasFired calls id := by
  induction calls using List.reverseRecOn with
  | nil =>
    refine ⟨.empty, stands_memory _, fun id => iff_of_false (fun stale => ?_) not_exists_split_nil⟩
    obtain ⟨⟨ticket, hticket⟩, -⟩ := stale
    cases hticket
  | append_singleton calls call ih =>
    obtain ⟨tables, stands, stale⟩ := ih
    obtain ⟨tables', stands', step⟩ := stands.stale_step behind call
    rw [reached_concat]
    refine ⟨tables', stands', fun id => ?_⟩
    rw [step, stale]
    exact exists_split_concat.symm

/-- After every run, also of an application behind a front end of the queue, cancelling a deletion
with a front end of the queue does all that belongs to it, or nothing. The task is missing from the
queue while its ticket is there just when it has been run. -/
theorem cancel_exact (app : App) (calls : List Call) (scheduler : Scheduler) (ctx : Context)
    (taskId : RecordId) (behind : app.scheduler.FrontsQueue)
    (fronts : (scheduler.cancel taskId).Fronts (Queue.cancel taskId)) :
    let store := app.reached calls
    let deletions : Deletions := ⟨scheduler, app.collections⟩
    deletions.CancelsExactly ctx taskId store
      ∧ (app.HasFired calls taskId ↔
          (∃ ticket, deletions.ticket store taskId = .ok (some ticket))
            ∧ store.perform (Queue.cancel taskId) = (.error (.taskNotFound taskId), store)) := by
  intro store deletions
  obtain ⟨tables, stands, stale⟩ := exists_stale behind calls
  have hold : deletions.collections.Hold store.contents tables := stands.hold
  refine ⟨Deletions.cancels_exactly hold stands.reliable fronts, ?_⟩
  have ticketed : deletions.ticket store taskId = .ok (tables.tickets.records taskId) :=
    hold.ticket_eq stands.reliable taskId
  have missing : store.perform (Queue.cancel taskId) = (.error (.taskNotFound taskId), store) ↔
      tables.tasks.records taskId = none := by
    rcases Queue.cancel_cases (stands.hold .task) stands.reliable taskId with
      ⟨absent, hcancel⟩ | ⟨task, after, queued, hcancel, -⟩
    · exact iff_of_true hcancel absent
    · have present : tables.tasks.records taskId = some task := queued
      rw [hcancel, present]
      exact iff_of_false nofun nofun
  rw [← stale taskId, Tables.Stale, ticketed, missing]
  simp only [Except.ok.injEq]

/-- Ada can cancel the deletion that `posted` schedules, unless the front end refuses. After the
task has been run it is too late. -/
theorem cancel_exact_posted :
    let app := ofConfig {}
    let store := app.reached posted
    let fired := app.reached (posted ++ [.fire ⟨1⟩ ⟨20⟩])
    let ctx : Context := ⟨⟨12⟩, [ada]⟩
    let stuck : Deletions := ⟨Recorder.withoutCancel, app.collections⟩
    (∃ task after, store.perform (app.deletions.cancel ctx ⟨1⟩) = (.ok (), after)
        ∧ Queue.get store ⟨1⟩ = .ok (some task)
        ∧ Contents.Emptied (fun key => Queue.TaskKey ⟨1⟩ task key
            ∨ key = app.collections.tickets.recordKey ⟨1⟩) store.contents after.contents)
      ∧ store.perform (stuck.cancel ctx ⟨1⟩) =
          (.error (.schedule (.handler "scheduler unavailable")), store)
      ∧ fired.perform (app.deletions.cancel ctx ⟨1⟩) =
          (.error (.schedule (.taskNotFound ⟨1⟩)), fired) := by
  intro app store fired ctx stuck
  have ticketed : app.deletions.ticket store ⟨1⟩ = .ok (some ⟨some ⟨1⟩, ⟨1⟩, ada⟩) := by
    decide +kernel
  have failed : ∀ {deletions : Deletions} {store : Store} {error : BlogError},
      deletions.CancelsExactly ctx ⟨1⟩ store → deletions.Refuses ctx ⟨1⟩ store error →
      store.perform (deletions.cancel ctx ⟨1⟩) = (.error error, store) := by
    intro deletions store error settled refuses
    have outcome := Store.perform_eq_of_fst ((settled.error_iff error).2 refuses)
    rw [outcome, settled.keeps error _ outcome]
  refine ⟨?_, ?_, ?_⟩
  · obtain ⟨settled, -⟩ := cancel_exact app posted Queue.scheduler ctx ⟨1⟩ Queue.scheduler_fronts
      (.refl _)
    have done := settled.ok_iff.2 ⟨_, ticketed, rfl, by decide +kernel⟩
    have hrun := Store.perform_eq_of_fst done
    obtain ⟨task, queued, emptied⟩ := settled.removes _ hrun
    exact ⟨task, _, hrun, queued, emptied⟩
  · obtain ⟨settled, -⟩ := cancel_exact app posted Recorder.withoutCancel ctx ⟨1⟩
      Queue.scheduler_fronts (Recorder.withoutCancel_fronts.cancel ⟨1⟩)
    exact failed settled (.kept ticketed rfl rfl)
  · obtain ⟨settled, fired_iff⟩ := cancel_exact app (posted ++ [.fire ⟨1⟩ ⟨20⟩]) Queue.scheduler ctx
      ⟨1⟩ Queue.scheduler_fronts (.refl _)
    have completes : app.Fires store ⟨1⟩ (.fire ⟨1⟩ ⟨20⟩) :=
      .fire (show (app.fire ⟨1⟩ ⟨20⟩ store).1 = .ok .completed by decide +kernel) rfl
    obtain ⟨-, missing⟩ := fired_iff.1 ⟨posted, _, [], rfl, completes⟩
    have kept : app.deletions.ticket fired ⟨1⟩ = .ok (some ⟨some ⟨1⟩, ⟨1⟩, ada⟩) := by
      decide +kernel
    exact failed settled (.kept kept rfl (congrArg Prod.fst missing))

end App

end Gazette
