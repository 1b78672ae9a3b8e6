import Gazette.Proofs.Blog.Soundness
import Gazette.Proofs.Schedule.Firing

set_option autoImplicit false

/-! # What scheduling a deletion adds

A deletion is scheduled in two steps, each of which fails as a whole or not at all: the task is put
into the queue, and then a ticket is issued under the ID of the task. If both succeed, nothing else
has changed. The ticket is refused if it names no article or no owner, and then the queued task is
left without one (`App.schedule_whole_if_fit`). So scheduling is not all or nothing
(`App.not_schedule_whole`). A request runs on an overlay, which undoes such a task with the rest.
-/

namespace Gazette

variable {store queued after : Store} {tables : Tables} {articleId id : RecordId}
  {owner : Address} {deleteAt : UnixTime}

/-! ## Tickets -/

namespace DeletionTicket

/-- A ticket is valid if it names an article and an owner. -/
theorem validate_eq_ok {ticket : DeletionTicket} (hid : ticket.id = some id) :
    ticket.validate = .ok () ↔ ticket.articleId.sequence ≠ 0 ∧ ticket.owner ≠ .zero := by
  have assigned : Check.assigned ticket.id = .ok () := by
    rw [hid]
    rfl
  rw [validate, ValidationErrors.result_ofChecks]
  simp only [List.forall_mem_cons, List.not_mem_nil, false_imp_iff, implies_true, and_true,
    assigned, true_and, Field.reference_eq_ok, Field.owner_eq_ok]

end DeletionTicket

namespace Collections

variable {c : Collections}

/-- The only key of a ticket is that of its record. -/
theorem keyOf_ticket {ticket : DeletionTicket} {key : Bytes} :
    c.tickets.KeyOf id ticket key ↔ key = c.tickets.recordKey id := by
  refine or_iff_left ?_
  rintro ⟨index, hindex, -⟩
  cases hindex

/-- A ticket is stored if it is valid, and if it is not nothing happens. -/
theorem Hold.put_ticket_cases (h : c.Hold store.contents tables) (hstore : store.Reliable)
    {ticket : DeletionTicket} (hid : ticket.id = some id) :
    (∃ after, ticket.validate = .ok ()
        ∧ store.perform (c.tickets.put ticket) = (.ok (id, ticket), after)) ∨
      ∃ faults, ticket.validate = .error faults
        ∧ store.perform (c.tickets.put ticket) = (.error (.validation faults), store) := by
  have hold : c.tickets.Holds store.contents tables.tickets := h .ticket
  have own : Record.id ticket = some id := hid
  have self : Record.withId ticket id = ticket := by
    cases ticket
    cases hid
    rfl
  rcases hold.perform_put_cases hstore ticket with
    ⟨answer, after, hput⟩ | ⟨full, -⟩ | ⟨error, hput, -, rejects⟩
  · have admits := (hold.put_own_iff hstore own).1 ⟨_, _, hput⟩
    obtain ⟨rfl, -⟩ := hold.put_done hstore hput
    rw [Table.idFor_own own, self] at hput
    exact .inl ⟨after, admits.valid, hput⟩
  · exact absurd (Table.roomFor_own own) full
  · rw [Table.numbered_own own] at rejects
    cases rejects with
    | invalid faults hfaults => exact .inr ⟨faults, hfaults, hput⟩
    | refused index reason hindex => cases hindex
    | taken index key hindex => cases hindex

/-- It is put under a key of its own. -/
theorem Hold.get?_put_ticket (h : c.Hold store.contents tables) (hstore : store.Reliable)
    {ticket : DeletionTicket} (hid : ticket.id = some id)
    (free : tables.tickets.records id = none)
    (hput : store.perform (c.tickets.put ticket) = (.ok (id, ticket), after)) {key : Bytes}
    (apart : key ≠ c.tickets.recordKey id) :
    after.contents.get? key = store.contents.get? key := by
  have hold : c.tickets.Holds store.contents tables.tickets := h .ticket
  refine hold.represents.get?_put_free hstore hput free (fun own => apart ?_) fun hnew => ?_
  · exact keyOf_ticket.1 own
  · cases hid.symm.trans hnew

end Collections

/-! ## Queued tasks -/

namespace Queue

/-- A task that is put into the queue under an ID that is free touches its own keys and that of the
counter. -/
theorem get?_schedule {tasks : Table Task} (h : bucket.Holds store.contents tasks)
    (hstore : store.Reliable) {payload : Bytes}
    (hrun : store.perform (schedule deleteAt payload) = (.ok id, after))
    (free : tasks.records id = none) {key : Bytes}
    (apart : ¬ TaskKey id { id := some id, runAt := deleteAt, payload } key)
    (uncounted : key ≠ bucket.counter.key) :
    after.contents.get? key = store.contents.get? key := by
  obtain ⟨task, hput⟩ := schedule_eq_ok hrun
  obtain ⟨-, admits⟩ := (h.put_new_iff hstore rfl).1 ⟨_, _, hput⟩
  obtain ⟨answer, -⟩ := h.put_done hstore hput
  obtain ⟨rfl, rfl⟩ := Prod.mk.inj answer
  refine h.represents.get?_put_free hstore hput free (fun own => apart ?_) fun _ => uncounted
  exact (keyOf_iff admits.valid).1 own

end Queue

/-! ## New IDs -/

/-- The ID that the next task gets has no ticket either. -/
theorem Linked.next_free {articles : Table Article} {tickets : Table DeletionTicket}
    {tasks : Table Task} (h : Linked articles tickets tasks) (room : tasks.HasRoom) :
    tasks.records tasks.next = none ∧ tickets.records tasks.next = none := by
  have unticketed : tickets.records tasks.next = none :=
    Option.eq_none_iff_forall_ne_some.2 fun ticket found =>
      room.ne_next (h.ticket_issued _ ticket found) rfl
  refine ⟨Option.eq_none_iff_forall_ne_some.2 fun task found => ?_, unticketed⟩
  obtain ⟨ticket, hticket, -⟩ := h.ticketed _ task found
  cases unticketed.symm.trans hticket

/-! ## Scheduling -/

namespace Deletions

variable {c : Collections} {ctx : Context}

/-- The task that deletes an article, as it is queued. -/
def taskOf (articleId : RecordId) (deleteAt : UnixTime) (id : RecordId) : Task where
  id := some id
  runAt := deleteAt
  payload := payload articleId

/-- The deletion of an article has been queued under an ID that was free, with this ticket or with
none. Besides them and the count of the IDs that were issued for tasks, nothing has changed. -/
structure Adds (deletions : Deletions) (articleId : RecordId) (deleteAt : UnixTime) (id : RecordId)
    (ticket? : Option DeletionTicket) (store after : Store) : Prop where
  free : Queue.get store id = .ok none ∧ deletions.ticket store id = .ok none
  counted : ∃ last, Queue.bucket.counter.current store = .ok last ∧ id = ⟨last + 1⟩
    ∧ Queue.bucket.counter.current after = .ok (last + 1)
  queued : Queue.get after id = .ok (some (taskOf articleId deleteAt id))
  ticketed : deletions.ticket after id = .ok ticket?
  others : ∀ i, i ≠ id → Queue.get after i = Queue.get store i
    ∧ deletions.ticket after i = deletions.ticket store i
  kept : ∀ key, ¬ Queue.TaskKey id (taskOf articleId deleteAt id) key →
    key ≠ Queue.bucket.counter.key →
    (ticket?.isSome → key ≠ deletions.collections.tickets.recordKey id) →
    after.contents.get? key = store.contents.get? key

/-- What the tables say about a task and a ticket that were added. -/
theorem adds_of_hold {tables' : Tables} {ticket? : Option DeletionTicket}
    (h : c.Hold store.contents tables) (hstore : store.Reliable)
    (h' : c.Hold after.contents tables') (hafter : after.Reliable)
    (free : tables.tasks.records tables.tasks.next = none
      ∧ tables.tickets.records tables.tasks.next = none)
    (tasks_eq : tables'.tasks =
      tables.tasks.add { id := none, runAt := deleteAt, payload := payload articleId })
    (tickets_eq : ∀ i, tables'.tickets.records i =
      if i = tables.tasks.next then ticket? else tables.tickets.records i)
    (kept : ∀ key, ¬ Queue.TaskKey tables.tasks.next
        (taskOf articleId deleteAt tables.tasks.next) key →
      key ≠ Queue.bucket.counter.key →
      (ticket?.isSome → key ≠ c.tickets.recordKey tables.tasks.next) →
      after.contents.get? key = store.contents.get? key) :
    Adds ⟨Queue.scheduler, c⟩ articleId deleteAt tables.tasks.next ticket? store after := by
  constructor
  case free =>
    rw [h.task_eq hstore, h.ticket_eq hstore, free.1, free.2]
    exact ⟨rfl, rfl⟩
  case counted =>
    have issued : Queue.bucket.counter.HasIssued after.contents tables'.tasks.last :=
      (h' .task).issued
    rw [tasks_eq] at issued
    exact ⟨tables.tasks.last, Counter.current_eq hstore (h .task).issued, rfl,
      Counter.current_eq hafter issued⟩
  case queued =>
    rw [h'.task_eq hafter, tasks_eq, Table.records_add_next]
    rfl
  case ticketed => rw [h'.ticket_eq hafter, tickets_eq, if_pos rfl]
  case others =>
    intro i other
    rw [h'.task_eq hafter, h.task_eq hstore, h'.ticket_eq hafter, h.ticket_eq hstore, tasks_eq,
      Table.records_add, tickets_eq, if_neg other, if_neg other]
    exact ⟨rfl, rfl⟩
  case kept => exact kept

/-- What comes before the ticket: the time and the signer are checked, and the task is queued. -/
def Queues (ctx : Context) (articleId : RecordId) (deleteAt : UnixTime) (store : Store)
    (owner : Address) (id : RecordId) (queued : Store) : Prop :=
  ctx.requireAhead deleteAt = .ok () ∧ ctx.mainSigner = .ok owner
    ∧ store.perform (Queue.schedule deleteAt (payload articleId)) = (.ok id, queued)

/-- Without that nothing happens. -/
theorem schedule_of_not_queues (h : c.Hold store.contents tables) (hstore : store.Reliable)
    (fails : ¬ ∃ owner id queued, Queues ctx articleId deleteAt store owner id queued) :
    ∃ error, store.perform (schedule ⟨Queue.scheduler, c⟩ ctx articleId deleteAt) =
      (.error error, store) := by
  unfold schedule
  -- what comes before the queue writes nothing, and the queue fails as a whole
  rcases Store.perform_read_bind_cases store (fun _ => ctx.requireAhead deleteAt) _ with
    ⟨error, -, early⟩ | ⟨⟨⟩, hahead, hrun⟩
  · exact ⟨error, early⟩
  rw [hrun]
  rcases Store.perform_read_bind_cases store (fun _ => ctx.mainSigner) _ with
    ⟨error, -, unsigned⟩ | ⟨owner, hsigned, hrun⟩
  · exact ⟨error, unsigned⟩
  rw [hrun]
  rcases Queue.schedule_cases (h .task) hstore deleteAt (length_payload_lt articleId) with
    ⟨error, hqueue⟩ | ⟨queued, hqueue, -⟩
  · have failed := Store.perform_mapError_of_error hqueue BlogError.schedule
    exact ⟨.schedule error, Store.perform_bind_of_error failed _⟩
  · exact (fails ⟨owner, _, queued, hahead, hsigned, hqueue⟩).elim

/-- Once the task is queued, all depends on the ticket. -/
theorem Queues.perform_eq (h : Queues ctx articleId deleteAt store owner id queued) :
    store.perform (schedule ⟨Queue.scheduler, c⟩ ctx articleId deleteAt) =
      queued.perform (Tx.mapError .store (c.tickets.put { id := some id, articleId, owner }) >>=
        fun _ => pure id) := by
  obtain ⟨hahead, hsigned, hqueue⟩ := h
  unfold schedule
  rw [Store.perform_read_bind_of_ok hahead, Store.perform_read_bind_of_ok hsigned]
  exact Store.perform_bind_of_ok (Store.perform_mapError_eq_ok.2 hqueue) _

/-- The ticket is put beside the task, or it is refused and the task stays without one. -/
theorem Queues.cases (hqueues : Queues ctx articleId deleteAt store owner id queued)
    (h : c.Hold store.contents tables) (hstore : store.Reliable) (linked : tables.Linked) :
    (articleId.sequence ≠ 0 ∧ owner ≠ .zero ∧ ∃ after,
        store.perform (schedule ⟨Queue.scheduler, c⟩ ctx articleId deleteAt) = (.ok id, after)
          ∧ Adds ⟨Queue.scheduler, c⟩ articleId deleteAt id (some ⟨some id, articleId, owner⟩)
            store after) ∨
      ¬ (articleId.sequence ≠ 0 ∧ owner ≠ .zero) ∧ ∃ faults,
        store.perform (schedule ⟨Queue.scheduler, c⟩ ctx articleId deleteAt) =
            (.error (.store (.validation faults)), queued)
          ∧ Adds ⟨Queue.scheduler, c⟩ articleId deleteAt id none store queued := by
  have hqueue := hqueues.2.2
  obtain ⟨rfl, room, hqueued, hold⟩ :=
    h.queue_schedule hstore (length_payload_lt articleId) hqueue
  have free := linked.next_free room
  have kept : ∀ key, ¬ Queue.TaskKey tables.tasks.next
        (taskOf articleId deleteAt tables.tasks.next) key →
      key ≠ Queue.bucket.counter.key → queued.contents.get? key = store.contents.get? key :=
    fun _ => Queue.get?_schedule (h .task) hstore hqueue free.1
  -- the ticket is put under the ID of the task, which has none yet
  let ticket : DeletionTicket := ⟨some tables.tasks.next, articleId, owner⟩
  have own : ticket.id = some tables.tasks.next := rfl
  rcases hold.put_ticket_cases hqueued own with
    ⟨after, valid, hput⟩ | ⟨faults, invalid, hput⟩
  · obtain ⟨named, owned⟩ := (DeletionTicket.validate_eq_ok own).1 valid
    obtain ⟨-, hafter, hold'⟩ :=
      hold.put_own hqueued .ticket (DeletionTicket.storable ticket) own hput
    refine .inl ⟨named, owned, after, ?_, ?_⟩
    · rw [hqueues.perform_eq]
      exact Store.perform_bind_of_ok (Store.perform_mapError_eq_ok.2 hput) _
    · refine adds_of_hold h hstore hold' hafter free rfl (Table.records_set _ _ _)
        fun key apart uncounted unticketed => ?_
      exact (hold.get?_put_ticket hqueued own free.2 hput (unticketed rfl)).trans
        (kept key apart uncounted)
  · refine .inr ⟨fun fit => ?_, faults, ?_, ?_⟩
    · rw [(DeletionTicket.validate_eq_ok own).2 fit] at invalid
      cases invalid
    · rw [hqueues.perform_eq]
      exact Store.perform_bind_of_error (Store.perform_mapError_of_error hput _) _
    · refine adds_of_hold h hstore hold hqueued free rfl (fun i => ?_)
        fun key apart uncounted _ => kept key apart uncounted
      split
      · rename_i same
        exact same ▸ free.2
      · rfl

end Deletions

namespace App

/-- If the article ID and the main signer are not zero, scheduling a deletion adds one task and one
ticket under one ID, or fails and changes nothing. If one of them is zero it always fails, and the
task that was queued before the ticket is refused stays in the queue. -/
theorem schedule_whole_if_fit (config : Config) (calls : List Call) (ctx : Context)
    (articleId : RecordId) (deleteAt : UnixTime) :
    let app := ofConfig config
    let store := app.reached calls
    let deletions : Deletions := ⟨Queue.scheduler, app.collections⟩
    let fit := articleId.sequence ≠ 0 ∧ ctx.mainSigner ≠ .ok .zero
    let queues := ∃ owner id queued, Deletions.Queues ctx articleId deleteAt store owner id queued
    ∃ outcome after, store.perform (deletions.schedule ctx articleId deleteAt) = (outcome, after)
      ∧ (∀ id, outcome = .ok id → fit ∧ ∃ owner, ctx.mainSigner = .ok owner
          ∧ deletions.Adds articleId deleteAt id (some ⟨some id, articleId, owner⟩) store after)
      ∧ ∀ error, outcome = .error error → error.isFatal = false ∧ (fit → after = store)
          ∧ (¬ queues → after = store)
          ∧ (queues → ∃ faults id, error = .store (.validation faults)
              ∧ deletions.Adds articleId deleteAt id none store after) := by
  intro app store deletions fit queues
  obtain ⟨tables, stands⟩ := exists_stands config calls
  have hold : app.collections.Hold store.contents tables := stands.hold
  have hstore : store.Reliable := stands.reliable
  have harmless : Harmless BlogError.isFatal
      (store.perform (deletions.schedule ctx articleId deleteAt)).1 :=
    hold.schedule_harmless hstore articleId deleteAt
  by_cases hqueues : queues
  · obtain ⟨owner, id, queued, hqueue⟩ := id hqueues
    have signed : ctx.mainSigner = .ok owner := hqueue.2.1
    rcases hqueue.cases hold hstore stands.linked with
      ⟨named, owned, after, hrun, adds⟩ | ⟨unfit, faults, hrun, adds⟩
    · refine ⟨.ok id, after, hrun, ?_, (fun error failed => by cases failed)⟩
      rintro _ ⟨⟩
      have fits : fit := by
        refine ⟨named, ?_⟩
        rw [signed]
        exact fun zero => owned (Except.ok.inj zero)
      exact ⟨fits, owner, signed, adds⟩
    · refine ⟨_, queued, hrun, (fun id ok => by cases ok), ?_⟩
      rintro _ ⟨⟩
      rw [hrun] at harmless
      refine ⟨harmless _ rfl, fun fits => ?_, fun fails => absurd hqueues fails, fun _ => ?_⟩
      · refine absurd ⟨fits.1, ?_⟩ unfit
        rintro rfl
        exact fits.2 signed
      · exact ⟨faults, id, rfl, adds⟩
  · obtain ⟨error, hrun⟩ := Deletions.schedule_of_not_queues hold hstore hqueues
    refine ⟨.error error, store, hrun, (fun id ok => by cases ok), ?_⟩
    rintro _ ⟨⟩
    rw [hrun] at harmless
    exact ⟨harmless _ rfl, fun _ => rfl, fun _ => rfl, fun made => absurd made hqueues⟩

/-- After `posted` a second deletion of the article is scheduled with a ticket of its own. One that
names no article leaves a task behind. -/
theorem schedule_whole_if_fit_posted :
    let app := ofConfig {}
    let store := app.reached posted
    let deletions : Deletions := ⟨Queue.scheduler, app.collections⟩
    let ctx : Context := ⟨⟨12⟩, [ada]⟩
    (∃ after, store.perform (deletions.schedule ctx ⟨1⟩ ⟨30⟩) = (.ok ⟨2⟩, after)
        ∧ deletions.Adds ⟨1⟩ ⟨30⟩ ⟨2⟩ (some ⟨some ⟨2⟩, ⟨1⟩, ada⟩) store after)
      ∧ ∃ faults after, store.perform (deletions.schedule ctx ⟨0⟩ ⟨30⟩) =
          (.error (.store (.validation faults)), after)
        ∧ deletions.Adds ⟨0⟩ ⟨30⟩ ⟨2⟩ none store after := by
  intro app store deletions ctx
  constructor
  · obtain ⟨outcome, after, hrun, ok, -⟩ := schedule_whole_if_fit {} posted ctx ⟨1⟩ ⟨30⟩
    have answer : (store.perform (deletions.schedule ctx ⟨1⟩ ⟨30⟩)).1 = .ok ⟨2⟩ := by
      decide +kernel
    obtain rfl : outcome = .ok ⟨2⟩ := (congrArg Prod.fst hrun).symm.trans answer
    obtain ⟨-, owner, signed, adds⟩ := ok ⟨2⟩ rfl
    obtain rfl : owner = ada := (Except.ok.inj signed).symm
    exact ⟨after, hrun, adds⟩
  · obtain ⟨outcome, after, hrun, ok, failed⟩ := schedule_whole_if_fit {} posted ctx ⟨0⟩ ⟨30⟩
    have queues : ∃ owner id queued,
        Deletions.Queues ctx ⟨0⟩ ⟨30⟩ store owner id queued := by
      refine ⟨ada, ⟨2⟩, _, rfl, rfl, Store.perform_eq_of_fst ?_⟩
      decide +kernel
    cases outcome with
    | ok id => exact absurd rfl (ok id rfl).1.1
    | error error =>
      obtain ⟨-, -, -, half⟩ := failed error rfl
      obtain ⟨faults, id, rfl, adds⟩ := half queues
      -- one task has been queued before
      obtain ⟨last, counted, rfl, -⟩ := adds.counted
      have one : Queue.bucket.counter.current store = .ok 1 := by decide +kernel
      obtain rfl := Except.ok.inj (one.symm.trans counted)
      exact ⟨faults, after, hrun, adds⟩

/-- An error is no sign that nothing has changed: on the empty store, a deletion that names no
article is refused, and the task for it is queued. -/
theorem not_schedule_whole :
    ¬ ∀ (config : Config) (calls : List Call) (ctx : Context) (articleId : RecordId)
      (deleteAt : UnixTime) (error : BlogError) (after : Store),
      let app := ofConfig config
      let store := app.reached calls
      store.perform (Deletions.schedule ⟨Queue.scheduler, app.collections⟩ ctx articleId deleteAt) =
          (.error error, after) →
        error.isFatal = false → after = store := by
  intro claimed
  let app := ofConfig {}
  let store := app.reached []
  let step := Deletions.schedule ⟨Queue.scheduler, app.collections⟩ ⟨⟨10⟩, [ada]⟩ ⟨0⟩ ⟨20⟩
  have refused : (store.perform step).1 =
      .error (.store (.validation ⟨[⟨"ArticleID", .empty⟩]⟩)) := by decide +kernel
  have left : Queue.isQueued (store.perform step).2 ⟨1⟩ = .ok true := by decide +kernel
  -- in a store that has not changed nothing is queued
  rw [claimed {} [] ⟨⟨10⟩, [ada]⟩ ⟨0⟩ ⟨20⟩ _ _ (Store.perform_eq_of_fst refused) rfl] at left
  have nothing : Queue.isQueued store ⟨1⟩ = .ok false := rfl
  cases nothing.symm.trans left

end App

end Gazette
